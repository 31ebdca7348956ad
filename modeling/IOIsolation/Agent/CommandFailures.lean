import IOIsolation.Agent.ServiceCommands
import IOIsolation.Service.Persist

/-!
# Agent.CommandFailures

A failure of one of the service's engines on its way back to the agent: the engine's handler, the
server that dispatches the request to it, and the agent's loop that looks at the error of the call.
The gRPC layer hands on what the server returns.

* `handler_treatment`, `task_treatment` — what the loop and its tasks do with the answer to a call.
* `serve_engine`     — the server hands on an engine's response, but never its error.
* `reaches_agent_iff` — a failed command is retried or reported only if the server itself made up the
  error.
-/

namespace IOIsolation.Agent.CommandFailures

open Lib ServiceCommands
open Service (ResponseState)

/-! ## Handlers and the server -/

structure CallError where
  code : Agent.Code
  message : String
  deriving DecidableEq

structure Answer where
  response : Option ResponseState
  err : Option CallError
  deriving DecidableEq

/-- An error or status `FAIL` is reported. -/
def Answer.Failed (a : Answer) : Prop := a.err ≠ none ∨ a.response = some .fail

instance (a : Answer) : Decidable a.Failed := inferInstanceAs (Decidable (_ ∨ _))

/-- A plain Go error has the code `Unknown`. -/
def failWith (message : String) : Answer := ⟨some .fail, some ⟨.other, message⟩⟩

/-- An engine is what its handlers answer. -/
abbrev Engine : Type := Command → Answer

/-- The server's engines by type. `parses` says which texts are a log level, `saved` whether the
database takes the log level. -/
structure IOIServer where
  engines : Dict IoiType Engine
  parses : String → Bool
  saved : Bool

def Command.ioiType : Command → IoiType
  | .registerApp _ _ ioiType => ioiType
  | .unRegisterApp _ ioiType => ioiType
  | .setAppLimit _ _ ioiType => ioiType
  | .configure _ _ ioiType => ioiType

/-- The common part of the four handlers of the server: an engine's error is logged, and only its
response goes on. -/
def dispatch (s : IOIServer) (missing : String) (c : Command) : Answer :=
  match s.engines.lookup (Command.ioiType c) with
  | some engine => ⟨(engine c).response, none⟩
  | none => failWith missing

def logLevel : String := "LOGLEVEL"

/-- `Configure` on the common type, which the server does itself. -/
def configureCommon (s : IOIServer) (type text : String) : Answer :=
  if type = logLevel then
    if text = "" then ⟨some .fail, none⟩
    else if s.parses text = false then ⟨some .fail, none⟩
    else if s.saved = false then ⟨none, some ⟨.other, "update db for config failed"⟩⟩
    else ⟨some .ok, none⟩
  else failWith "ioi type is invalid"

def registerApp (s : IOIServer) (c : Command) : Answer := dispatch s "no engine can register" c

def unRegisterApp (s : IOIServer) (c : Command) : Answer := dispatch s "no engine can unregister" c

def setAppLimit (s : IOIServer) (c : Command) : Answer := dispatch s "no engine can set app limit it" c

def configure (s : IOIServer) (type text : String) (ioiType : IoiType) : Answer :=
  if ioiType = .common then configureCommon s type text
  else dispatch s "with engine can configure it" (.configure type text ioiType)

def serve (s : IOIServer) (c : Command) : Answer :=
  match c with
  | .registerApp _ _ _ => registerApp s c
  | .unRegisterApp _ _ => unRegisterApp s c
  | .setAppLimit _ _ _ => setAppLimit s c
  | .configure type text ioiType => configure s type text ioiType

/-- The command is one that the server carries out itself. -/
def IsCommon : Command → Prop
  | .configure _ _ ioiType => ioiType = .common
  | _ => False

instance : ∀ c, Decidable (IsCommon c)
  | .configure _ _ _ => inferInstanceAs (Decidable (_ = _))
  | .registerApp _ _ _ => isFalse id
  | .unRegisterApp _ _ => isFalse id
  | .setAppLimit _ _ _ => isFalse id

/-- What the handler of the command reported; `none` if there is no handler for it. -/
def handled (s : IOIServer) (c : Command) : Option Answer :=
  if IsCommon c then some (serve s c)
  else (s.engines.lookup (Command.ioiType c)).map fun engine => engine c

/-! ## The agent -/

inductive Treatment where
  | done
  | retried
  | reported
  deriving DecidableEq

/-- The agent looks at the error only. A pod's limit is put back on any error, another command if the
service is unavailable; otherwise the error is logged. -/
def treatment (c : Command) (reply : Reply) : Treatment :=
  match reply with
  | none => .done
  | some code => if c.pod.isSome ∨ code = .unavailable then .retried else .reported

def Answer.reply (a : Answer) : Reply := a.err.map CallError.code

variable {e : Issue} {s s' : State} {c : Command}

theorem handler_treatment {rest : List Issue} {reply : Reply}
    (hchan : s.clientHandlerChan = e :: rest) (hpod : e.command.pod = none)
    (h : serviceClientTHandler s reply = some s') :
    s'.executed = s.executed ++ [(e, reply)] ∧
      (s'.sleeping = some e ↔ treatment e.command reply = .retried) ∧
      (s'.err = none ↔ treatment e.command reply = .done) := by
  unfold serviceClientTHandler at h
  cases hsl : s.sleeping with
  | some x => simp [hsl] at h
  | none =>
    simp only [hsl, hchan, hpod, Option.some.injEq] at h
    subst h
    cases reply with
    | none => simp [treatment]
    | some code => cases code <;> simp [treatment, hpod]

theorem task_treatment {i : ℕ} {reply : Reply} (htask : s.tasks[i]? = some ⟨e, none⟩)
    (hpod : e.command.pod ≠ none) (h : retrySetAppLimit s i true reply = some s') :
    s'.executed = s.executed ++ [(e, reply)] ∧
      (s'.tasks = s.tasks.eraseIdx i ∧ treatment e.command reply = .done ∨
        s'.tasks = s.tasks.set i ⟨e, some 500⟩ ∧ treatment e.command reply = .retried) := by
  have hsome : e.command.pod.isSome = true := Option.isSome_iff_ne_none.mpr hpod
  unfold retrySetAppLimit at h
  simp only [htask, if_true] at h
  cases reply with
  | none =>
    simp only [Option.some.injEq] at h
    subst h
    exact ⟨rfl, .inl ⟨rfl, rfl⟩⟩
  | some code =>
    simp only [Option.some.injEq] at h
    subst h
    exact ⟨rfl, .inr ⟨rfl, by simp [treatment, hsome]⟩⟩

/-! ## The way back -/

theorem treatment_done_iff (c : Command) (a : Answer) :
    treatment c a.reply = .done ↔ a.err = none := by
  cases h : a.err with
  | none => simp [treatment, Answer.reply, h]
  | some err =>
    simp only [treatment, Answer.reply, h, Option.map_some, reduceCtorEq, iff_false]
    split_ifs <;> simp

theorem serve_engine {s : IOIServer} {engine : Engine} (hown : ¬ IsCommon c)
    (h : s.engines.lookup (Command.ioiType c) = some engine) :
    serve s c = ⟨(engine c).response, none⟩ := by
  cases c with
  | registerApp appName appInfo ioiType => simp only [serve, registerApp, dispatch, h]
  | unRegisterApp appId ioiType => simp only [serve, unRegisterApp, dispatch, h]
  | setAppLimit appId limit ioiType => simp only [serve, setAppLimit, dispatch, h]
  | configure type text ioiType =>
    have hne : ioiType ≠ .common := hown
    simp only [serve, configure, if_neg hne, dispatch, h]

/-- A failure of the command's handler is not taken for success: the command is retried, or the
failure reported. -/
def ReachesAgent (s : IOIServer) (c : Command) : Prop :=
  ∀ a, handled s c = some a → a.Failed → treatment c (serve s c).reply ≠ .done

def Readable (s : IOIServer) (type text : String) : Prop :=
  type = logLevel → text ≠ "" ∧ s.parses text = true

/-- The engine's handler does not fail; a configuration of the server itself can be read. -/
def Succeeds (s : IOIServer) (c : Command) : Prop :=
  match c with
  | .configure type text .common => Readable s type text
  | c => ∀ engine, s.engines.lookup (Command.ioiType c) = some engine → ¬ (engine c).Failed

theorem reaches_common_iff (s : IOIServer) (type text : String) :
    ReachesAgent s (.configure type text .common) ↔ Readable s type text := by
  have hserve : serve s (.configure type text .common) = configureCommon s type text := rfl
  have hhandled : handled s (.configure type text .common) = some (configureCommon s type text) := rfl
  simp only [ReachesAgent, hhandled, hserve, Option.some.injEq, forall_eq', ne_eq,
    treatment_done_iff, Answer.Failed]
  unfold configureCommon Readable
  split_ifs with htype htext hparse hsaved
  · simp [htype, htext]
  · simp [htype, hparse]
  · simp_all
  · simp_all
  · simp [htype, failWith]

theorem reaches_engine_iff {s : IOIServer} (hown : ¬ IsCommon c) :
    ReachesAgent s c ↔
      ∀ engine, s.engines.lookup (Command.ioiType c) = some engine → ¬ (engine c).Failed := by
  rw [ReachesAgent, handled, if_neg hown]
  cases h : s.engines.lookup (Command.ioiType c) with
  | none => simp
  | some engine =>
    have hdone : treatment c (serve s c).reply = .done := by
      rw [treatment_done_iff, serve_engine hown h]
    simp [hdone]

/-- The only failures that reach the agent are those for which the server makes an error of its own:
no failure of an engine's handler does. -/
theorem reaches_agent_iff (s : IOIServer) (c : Command) : ReachesAgent s c ↔ Succeeds s c := by
  by_cases hown : IsCommon c
  · cases c with
    | configure type text ioiType =>
      obtain rfl : ioiType = .common := hown
      exact reaches_common_iff s type text
    | registerApp | unRegisterApp | setAppLimit => cases hown
  · rw [reaches_engine_iff hown]
    cases c with
    | configure type text ioiType =>
      cases ioiType with
      | common => exact absurd rfl hown
      | disk | net | rdt | rdtQuantity => exact Iff.rfl
    | registerApp | unRegisterApp | setAppLimit => exact Iff.rfl

def failingServer : IOIServer :=
  { engines := Finmap.singleton .disk fun _ => failWith "CgroupPath is invalid or does not exist"
    parses := fun _ => true
    saved := true }

theorem not_alwaysReaches : ¬ ∀ (s : IOIServer) (c : Command), ReachesAgent s c := by
  intro hall
  have hlook : failingServer.engines.lookup .disk =
      some fun _ => failWith "CgroupPath is invalid or does not exist" := Finmap.lookup_singleton_eq
  have hown : ¬ IsCommon (.registerApp "pod" "" .disk) := id
  exact (reaches_engine_iff hown).mp (hall failingServer (.registerApp "pod" "" .disk)) _ hlook
    (.inl (by simp [failWith]))

end IOIsolation.Agent.CommandFailures
