import IOIsolation.Lib.Run
import IOIsolation.Lib.Dict
import Mathlib.Data.List.Nodup

/-!
# Agent.ServiceCommands

The commands the agent's engines send to the node's I/O service. They wait in one channel; a single
loop (`ServiceClientTHandler`) takes them out and makes the calls. A command whose call finds the
service unavailable goes back to the end of the channel after a pause. Limits of pods are handed to
tasks of their own (`RetrySetAppLimit`), which put the command back as long as it did not succeed.

* `step_move`      — what each step does to the commands under way and to the calls made.
* `kept_in_order`  — commands of one application take effect in the order they were issued, if none
  is sent back or handed over, or waits outside the channel, while another of its application waits.
* `not_multiplied` — one copy of each command at a time and no call after the last one, if no pod
  limit is taken from the channel while the error of an earlier call is still `Unavailable`.
* `not_lost`       — no command is lost, in any run.
-/

namespace IOIsolation.Agent

open Lib List Option

/-! ## Commands -/

inductive IoiType where
  | common
  | disk
  | net
  | rdt
  | rdtQuantity
  deriving DecidableEq

structure BWLimit where
  id : String
  inBps : String
  inIops : Int
  outBps : String
  outIops : Int
  deriving DecidableEq

inductive Command where
  | registerApp (appName appInfo : String) (ioiType : IoiType)
  | unRegisterApp (appId : String) (ioiType : IoiType)
  | setAppLimit (appId : String) (limit : List BWLimit) (ioiType : IoiType)
  | configure (type configure : String) (ioiType : IoiType)
  deriving DecidableEq

/-- The parts of an application id, which is `group` or `group.pod`. -/
def podIds (appId : String) : List String := (appId.toList.splitOn '.').map String.ofList

/-- The pod a limit is for; `none` for a group's limit and for the other commands. -/
def Command.pod : Command → Option String
  | .setAppLimit appId _ _ => (podIds appId)[1]?
  | _ => none

/-- An application as the service knows it: the engine and the id it is registered under. -/
abbrev App := IoiType × String

/-- The application a command is about. A configuration is about none. -/
def Command.app : Command → Option App
  | .registerApp appName _ ioiType => some (ioiType, appName)
  | .unRegisterApp appId ioiType => some (ioiType, appId)
  | .setAppLimit appId _ ioiType => some (ioiType, ((podIds appId)[1]?).getD appId)
  | .configure _ _ _ => none

/-- What the service keeps for an application: whether it is registered, and a limit per device. -/
inductive Setting where
  | registration (a : App)
  | limit (a : App) (device : String)
  deriving DecidableEq

def Setting.app : Setting → App
  | .registration a => a
  | .limit a _ => a

/-- The command fixes the setting when it takes effect. -/
def Command.sets (c : Command) : Setting → Bool
  | .registration a =>
    match c with
    | .registerApp _ _ _ | .unRegisterApp _ _ => c.app == some a
    | _ => false
  | .limit a device =>
    match c with
    | .setAppLimit _ limit _ => c.app == some a && limit.any (·.id == device)
    | _ => false

theorem Command.app_of_sets {c : Command} {k : Setting} (h : c.sets k = true) :
    c.app = some k.app := by
  cases k with
  | registration | limit => cases c <;> simp_all [Command.sets, Setting.app]

/-! ## The handler and its tasks -/

/-- How a call fails: `codes.Unavailable`, or any other code. -/
inductive Code where
  | unavailable
  | other
  deriving DecidableEq

/-- The answer to a call; `none` is success. -/
abbrev Reply := Option Code

/-- A command on its way. Its number stands for the pointer that travels on the channel. -/
structure Issue where
  no : ℕ
  command : Command
  deriving DecidableEq

/-- A started `RetrySetAppLimit`: before its attempt, or pausing (in ms) before it puts the command
back. -/
structure Task where
  event : Issue
  delay : Option ℕ
  deriving DecidableEq

namespace ServiceCommands

/-- The agent's side of the commands, with the commands issued and the calls made so far. The error
`err` is declared outside the loop, so it lives on from turn to turn. -/
structure State where
  issued : List Issue
  clientHandlerChan : List Issue
  err : Reply
  sleeping : Option Issue
  tasks : List Task
  eventMap : Dict ℕ ℕ
  executed : List (Issue × Reply)

def start : State := ⟨[], [], none, none, [], ∅, []⟩

/-- One turn of the loop. A pod's limit starts a task and leaves `err` as it was. -/
def serviceClientTHandler (s : State) (reply : Reply) : Option State :=
  match s.sleeping, s.clientHandlerChan with
  | none, event :: rest =>
    let t : State :=
      match event.command.pod with
      | some _ => { s with clientHandlerChan := rest, tasks := s.tasks ++ [⟨event, none⟩] }
      | none =>
        { s with
          clientHandlerChan := rest
          err := reply
          executed := s.executed ++ [(event, reply)] }
    some { t with sleeping := if t.err = some .unavailable then some event else none }
  | _, _ => none

/-- The pause after the pod was found not running for the `times`-th time. -/
def retryDelay (times : ℕ) : ℕ := if times < 20 then times * 3 * 1000 else 60 * 1000

/-- The attempt of the `i`-th task, with what `IsPodRuning` says and the answer to its call. -/
def retrySetAppLimit (s : State) (i : ℕ) (running : Bool) (reply : Reply) : Option State :=
  match s.tasks[i]? with
  | some ⟨event, none⟩ =>
    if running then
      match reply with
      | none =>
        some { s with
          tasks := s.tasks.eraseIdx i
          eventMap := s.eventMap.erase event.no
          executed := s.executed ++ [(event, none)] }
      | some code =>
        some { s with
          tasks := s.tasks.set i ⟨event, some 500⟩
          executed := s.executed ++ [(event, some code)] }
    else
      let times := (s.eventMap.lookup event.no).elim 1 (· + 1)
      some { s with
        tasks := s.tasks.set i ⟨event, some (retryDelay times)⟩
        eventMap := s.eventMap.insert event.no times }
  | _ => none

/-- Send on the channel, which holds `size` commands; a full one blocks the sender. -/
def send (size : ℕ) (s : State) (event : Issue) : Option State :=
  if s.clientHandlerChan.length < size then
    some { s with clientHandlerChan := s.clientHandlerChan ++ [event] }
  else none

def chanSize : ℕ := 500

inductive Event where
  | issue (c : Command)
  | handle (reply : Reply)
  | wake
  | attempt (i : ℕ) (running : Bool) (reply : Reply)
  | putBack (i : ℕ)

def State.next (s : State) (c : Command) : Issue := ⟨s.issued.length, c⟩

def step (size : ℕ) (s : State) : Event → Option State
  | .issue c => send size { s with issued := s.issued ++ [s.next c] } (s.next c)
  | .handle reply => serviceClientTHandler s reply
  | .wake =>
    match s.sleeping with
    | some event => send size { s with sleeping := none } event
    | none => none
  | .attempt i running reply => retrySetAppLimit s i running reply
  | .putBack i =>
    match s.tasks[i]? with
    | some ⟨event, some _⟩ => send size { s with tasks := s.tasks.eraseIdx i } event
    | _ => none

/-- The commands outside the channel: with the pausing handler, or with a task. -/
def State.held (s : State) : List Issue := s.sleeping.toList ++ s.tasks.map Task.event

/-- Every copy of a command that is still to be worked on. -/
def State.outstanding (s : State) : List Issue := s.clientHandlerChan ++ s.held

/-- The commands that took effect, in the order they did. -/
def State.effective (s : State) : List Issue :=
  (s.executed.filter fun x => x.2 = none).map Prod.fst

/-! ## What a step does -/

/-- The moves of commands between the channel and its holders, and the calls made on the way. -/
inductive Move (s s' : State) : Event → Prop where
  | issue (c : Command) (hissued : s'.issued = s.issued ++ [s.next c])
      (hchan : s'.clientHandlerChan = s.clientHandlerChan ++ [s.next c]) (hheld : s'.held = s.held)
      (hexec : s'.executed = s.executed) : Move s s' (.issue c)
  | answered (e : Issue) (reply : Reply) (hpod : e.command.pod = none)
      (hreply : reply ≠ some .unavailable) (hissued : s'.issued = s.issued)
      (hchan : s.clientHandlerChan = e :: s'.clientHandlerChan) (hheld : s'.held = s.held)
      (hexec : s'.executed = s.executed ++ [(e, reply)]) : Move s s' (.handle reply)
  | refused (e : Issue) (hpod : e.command.pod = none) (hissued : s'.issued = s.issued)
      (hchan : s.clientHandlerChan = e :: s'.clientHandlerChan) (hheld : s'.held = e :: s.held)
      (hexec : s'.executed = s.executed ++ [(e, some .unavailable)]) :
      Move s s' (.handle (some .unavailable))
  | handed (e : Issue) (reply : Reply) (hpod : e.command.pod ≠ none)
      (hissued : s'.issued = s.issued) (hchan : s.clientHandlerChan = e :: s'.clientHandlerChan)
      (hheld : s.err ≠ some .unavailable ∧ s'.held.Perm (e :: s.held) ∨
        s.err = some .unavailable ∧ s'.held.Perm (e :: e :: s.held))
      (hexec : s'.executed = s.executed) : Move s s' (.handle reply)
  | applied (e : Issue) (i : ℕ) (hissued : s'.issued = s.issued)
      (hchan : s'.clientHandlerChan = s.clientHandlerChan) (hheld : s.held.Perm (e :: s'.held))
      (hexec : s'.executed = s.executed ++ [(e, none)]) : Move s s' (.attempt i true none)
  | failed (t : Task) (i : ℕ) (code : Code) (ht : t ∈ s.tasks) (hissued : s'.issued = s.issued)
      (hchan : s'.clientHandlerChan = s.clientHandlerChan) (hheld : s'.held = s.held)
      (hexec : s'.executed = s.executed ++ [(t.event, some code)]) :
      Move s s' (.attempt i true (some code))
  | postponed (i : ℕ) (reply : Reply) (hissued : s'.issued = s.issued)
      (hchan : s'.clientHandlerChan = s.clientHandlerChan) (hheld : s'.held = s.held)
      (hexec : s'.executed = s.executed) : Move s s' (.attempt i false reply)
  | returned (e : Issue) (ev : Event) (hissued : s'.issued = s.issued)
      (hchan : s'.clientHandlerChan = s.clientHandlerChan ++ [e])
      (hheld : s.held.Perm (e :: s'.held)) (hexec : s'.executed = s.executed) : Move s s' ev

variable {e x c : Issue} {s s' : State} {size i : ℕ} {ev : Event} {k : Setting}

theorem send_some (h : send size s e = some s') :
    s' = { s with clientHandlerChan := s.clientHandlerChan ++ [e] } := by
  unfold send at h
  split at h
  · exact (some.inj h).symm
  · cases h

theorem held_eraseIdx {t : Task} (ht : s.tasks[i]? = some t) :
    s.held.Perm (t.event :: (s.sleeping.toList ++ (s.tasks.eraseIdx i).map Task.event)) := by
  obtain ⟨hi, rfl⟩ := List.getElem?_eq_some_iff.mp ht
  have hperm := (getElem_cons_eraseIdx_perm hi).symm.map Task.event
  exact (hperm.append_left s.sleeping.toList).trans perm_middle

theorem held_set {d d' : Option ℕ} (ht : s.tasks[i]? = some ⟨e, d⟩) :
    s.sleeping.toList ++ (s.tasks.set i ⟨e, d'⟩).map Task.event = s.held := by
  have he : (s.tasks.map Task.event)[i]? = some e := by simp [ht]
  obtain ⟨hi, hei⟩ := List.getElem?_eq_some_iff.mp he
  have hsame : (s.tasks.map Task.event).set i e = s.tasks.map Task.event := by
    rw [← hei]
    exact set_getElem_self hi
  rw [map_set, hsame, State.held]

variable {reply : Reply} {l : List Issue}

theorem handle_move (h : serviceClientTHandler s reply = some s') : Move s s' (.handle reply) := by
  unfold serviceClientTHandler at h
  split at h
  · rename_i e rest hsl hch
    cases hp : e.command.pod with
    | some pod =>
      simp only [hp, some.injEq] at h
      subst h
      refine .handed e reply (by simp [hp]) rfl hch ?_ rfl
      by_cases herr : s.err = some .unavailable
      · refine .inr ⟨herr, ?_⟩
        simp only [State.held, hsl, herr, if_true, toList, map_append, map_cons,
          map_nil, nil_append, singleton_append]
        exact (perm_append_singleton e _).cons e
      · refine .inl ⟨herr, ?_⟩
        simp only [State.held, hsl, herr, if_false, toList, map_append, map_cons,
          map_nil, nil_append]
        exact perm_append_singleton e _
    | none =>
      simp only [hp, some.injEq] at h
      subst h
      by_cases hr : reply = some .unavailable
      · subst hr
        exact .refused e hp rfl hch (by simp [State.held, hsl]) rfl
      · exact .answered e reply hp hr rfl hch (by simp [State.held, hsl, hr]) rfl
  · cases h

theorem attempt_move {running : Bool} (h : retrySetAppLimit s i running reply = some s') :
    Move s s' (.attempt i running reply) := by
  unfold retrySetAppLimit at h
  split at h
  · rename_i e ht
    cases running with
    | true =>
      cases reply with
      | none =>
        simp only [if_true, some.injEq] at h
        subst h
        exact .applied e i rfl rfl (held_eraseIdx ht) rfl
      | some code =>
        simp only [if_true, some.injEq] at h
        subst h
        exact .failed ⟨e, none⟩ i code (mem_of_getElem? ht) rfl rfl (held_set ht) rfl
    | false =>
      simp only [Bool.false_eq_true, if_false, some.injEq] at h
      subst h
      exact .postponed i reply rfl rfl (held_set ht) rfl
  · cases h

theorem step_move (h : step size s ev = some s') : Move s s' ev := by
  cases ev with
  | issue c =>
    rw [send_some h]
    exact .issue c rfl rfl rfl rfl
  | handle reply => exact handle_move h
  | wake =>
    simp only [step] at h
    split at h
    · rename_i e hsl
      rw [send_some h]
      exact .returned e .wake rfl rfl (by simp [State.held, hsl]) rfl
    · cases h
  | attempt i running reply => exact attempt_move h
  | putBack i =>
    simp only [step] at h
    split at h
    · rename_i e d ht
      rw [send_some h]
      exact .returned e (.putBack i) rfl rfl (held_eraseIdx ht) rfl
    · cases h

/-- Tasks are started for limits of pods only. -/
def PodTasks (s : State) : Prop := ∀ t ∈ s.tasks, t.event.command.pod ≠ none

theorem step_podTasks (h : step size s ev = some s') (hs : PodTasks s) : PodTasks s' := by
  have hset : ∀ {i : ℕ} {e : Issue} {d : Option ℕ}, s.tasks[i]? = some ⟨e, none⟩ →
      ∀ t ∈ s.tasks.set i ⟨e, d⟩, t.event.command.pod ≠ none := by
    intro i e d ht t hmem
    rcases mem_or_eq_of_mem_set hmem with hmem | rfl
    · exact hs t hmem
    · exact hs ⟨e, none⟩ (mem_of_getElem? ht)
  cases ev with
  | issue c => rw [send_some h]; exact hs
  | handle reply =>
    simp only [step, serviceClientTHandler] at h
    split at h
    · rename_i e rest hsl hch
      cases hp : e.command.pod with
      | some pod =>
        simp only [hp, some.injEq] at h
        subst h
        intro t ht
        rcases mem_append.mp ht with ht | ht
        · exact hs t ht
        · rw [mem_singleton.mp ht, hp]
          exact some_ne_none pod
      | none =>
        simp only [hp, some.injEq] at h
        subst h
        exact hs
    · cases h
  | wake =>
    simp only [step] at h
    split at h
    · rw [send_some h]; exact hs
    · cases h
  | attempt i running reply =>
    simp only [step, retrySetAppLimit] at h
    split at h
    · rename_i e ht
      split at h
      · split at h
        · cases h
          exact fun t hmem => hs t (mem_of_mem_eraseIdx hmem)
        · cases h
          exact hset ht
      · cases h
        exact hset ht
    · cases h
  | putBack i =>
    simp only [step] at h
    split at h
    · rw [send_some h]
      exact fun t hmem => hs t (mem_of_mem_eraseIdx hmem)
    · cases h

/-- The issued commands are numbered in their order, and nothing else is under way or executed. -/
structure Booked (s : State) : Prop where
  numbered : s.issued.Pairwise fun x y => x.no < y.no
  below : ∀ e ∈ s.issued, e.no < s.issued.length
  outstanding : ∀ e ∈ s.outstanding, e ∈ s.issued
  executed : ∀ x ∈ s.executed, x.1 ∈ s.issued

theorem Booked.fresh (hs : Booked s) (c : Command) : s.next c ∉ s.issued :=
  fun h => Nat.lt_irrefl _ (hs.below _ h)

theorem mem_outstanding :
    e ∈ s.outstanding ↔ e ∈ s.clientHandlerChan ∨ e ∈ s.held := mem_append

theorem Move.outstanding_subset (h : Move s s' ev) (hx : x ∈ s'.outstanding) :
    x ∈ s.outstanding ∨ x ∈ s'.issued := by
  rw [mem_outstanding] at hx ⊢
  cases h with
  | issue c hissued hchan hheld =>
    rw [hchan, hheld, mem_append] at hx
    rw [hissued, mem_append]
    tauto
  | answered e reply _ _ _ hchan hheld =>
    rw [hheld] at hx
    rw [hchan]
    exact .inl (hx.imp_left (mem_cons_of_mem e))
  | refused e _ _ hchan hheld =>
    rw [hheld, mem_cons] at hx
    rw [hchan, mem_cons]
    tauto
  | handed e reply _ _ hchan hheld =>
    have hheld : x ∈ s'.held → x = e ∨ x ∈ s.held := by
      intro h
      rcases hheld with ⟨-, hp⟩ | ⟨-, hp⟩
      · simpa using hp.mem_iff.mp h
      · simpa using hp.mem_iff.mp h
    rw [hchan, mem_cons]
    tauto
  | applied e i _ hchan hheld =>
    rw [hchan] at hx
    rw [hheld.mem_iff]
    exact .inl (hx.imp_right (mem_cons_of_mem e))
  | failed t i code _ _ hchan hheld | postponed i reply _ hchan hheld =>
    rw [hchan, hheld] at hx; exact .inl hx
  | returned e ev _ hchan hheld =>
    rw [hchan, mem_append, mem_singleton] at hx
    rw [hheld.mem_iff, mem_cons]
    tauto

theorem Move.executed_subset (h : Move s s' ev) {x : Issue × Reply} (hx : x ∈ s'.executed) :
    x ∈ s.executed ∨ x.1 ∈ s.outstanding := by
  have hnew : ∀ {e : Issue} {reply : Reply}, s'.executed = s.executed ++ [(e, reply)] →
      e ∈ s.outstanding → x ∈ s.executed ∨ x.1 ∈ s.outstanding := by
    intro e reply hexec he
    rw [hexec, mem_append, mem_singleton] at hx
    rcases hx with hx | rfl
    · exact .inl hx
    · exact .inr he
  cases h with
  | issue _ _ _ _ hexec | handed _ _ _ _ _ _ hexec | postponed _ _ _ _ _ hexec
  | returned _ _ _ _ _ hexec =>
    exact .inl (hexec ▸ hx)
  | answered e reply _ _ _ hchan _ hexec | refused e _ _ hchan _ hexec =>
    exact hnew hexec (mem_outstanding.mpr (.inl (by simp [hchan])))
  | applied e i _ _ hheld hexec =>
    exact hnew hexec (mem_outstanding.mpr (.inr (hheld.mem_iff.mpr mem_cons_self)))
  | failed t i code ht _ _ _ hexec =>
    refine hnew hexec (mem_outstanding.mpr (.inr (mem_append_right _ ?_)))
    exact mem_map_of_mem ht

theorem Move.issued_cases (h : Move s s' ev) :
    s'.issued = s.issued ∨ ∃ c, s'.issued = s.issued ++ [s.next c] := by
  cases h with
  | issue c hissued => exact .inr ⟨c, hissued⟩
  | answered _ _ _ _ hissued | refused _ _ hissued | handed _ _ _ hissued | applied _ _ hissued
  | failed _ _ _ _ hissued | postponed _ _ hissued | returned _ _ hissued => exact .inl hissued

theorem Move.issued_mono (h : Move s s' ev) (he : e ∈ s.issued) : e ∈ s'.issued := by
  rcases h.issued_cases with heq | ⟨c, heq⟩
  · exact heq ▸ he
  · exact heq ▸ mem_append_left _ he

theorem Move.booked (h : Move s s' ev) (hs : Booked s) : Booked s' := by
  have houtstanding : ∀ e ∈ s'.outstanding, e ∈ s'.issued := by
    intro e he
    rcases h.outstanding_subset he with he | he
    · exact h.issued_mono (hs.outstanding e he)
    · exact he
  have hexecuted : ∀ x ∈ s'.executed, x.1 ∈ s'.issued := by
    intro x hx
    rcases h.executed_subset hx with hx | hx
    · exact h.issued_mono (hs.executed x hx)
    · exact h.issued_mono (hs.outstanding x.1 hx)
  rcases h.issued_cases with heq | ⟨c, heq⟩
  · exact ⟨heq ▸ hs.numbered, heq ▸ hs.below, houtstanding, hexecuted⟩
  refine ⟨?_, ?_, houtstanding, hexecuted⟩
  · rw [heq, pairwise_append]
    refine ⟨hs.numbered, pairwise_singleton _ _, fun x hx y hy => ?_⟩
    rw [mem_singleton.mp hy]
    exact hs.below x hx
  · intro e he
    rw [heq, length_append, length_singleton]
    rw [heq, mem_append, mem_singleton] at he
    rcases he with he | rfl
    · exact Nat.lt_succ_of_lt (hs.below e he)
    · exact Nat.lt_succ_self _

theorem start_booked : Booked start :=
  ⟨Pairwise.nil, by simp [start], by simp [start, State.outstanding, State.held], by simp [start]⟩

/-! ## Commands are not multiplied -/

/-- The call was the last one its command needs: it succeeded, or failed for good. A pod's limit is
tried again after any failure, every other command after `Unavailable` only. -/
def Settles (x : Issue × Reply) : Prop :=
  x.2 = none ∨ x.1.command.pod = none ∧ x.2 = some .other

/-- At most one copy of a command is under way, and no call follows a command's last one. -/
structure NotMultiplied (s : State) : Prop where
  single : s.outstanding.Nodup
  once : s.executed.Pairwise fun x y => Settles x → x.1 ≠ y.1

/-- A pod's limit is not taken from the channel while an earlier call's `Unavailable` is kept. -/
def ErrSettled (s : State) : Event → Prop
  | .handle _ => ∀ e ∈ s.clientHandlerChan.head?, e.command.pod ≠ none → s.err ≠ some .unavailable
  | _ => True

instance ErrSettled.decidable (s : State) : ∀ ev, Decidable (ErrSettled s ev)
  | .handle _ => inferInstanceAs (Decidable (∀ e ∈ s.clientHandlerChan.head?, _ → _ ≠ _))
  | .issue _ | .wake | .attempt _ _ _ | .putBack _ => isTrue trivial

structure Single (s : State) : Prop extends NotMultiplied s where
  settled : ∀ x ∈ s.executed, Settles x → x.1 ∉ s.outstanding

/-- What is under way keeps its copies, and a call is not the last one of its command. -/
theorem Single.keep (hs : Single s) (hperm : s'.outstanding.Perm s.outstanding)
    (hexec : s'.executed = s.executed ∨
      ∃ x, x.1 ∈ s.outstanding ∧ ¬ Settles x ∧ s'.executed = s.executed ++ [x]) : Single s' := by
  have hnodup := hperm.nodup_iff.mpr hs.single
  rcases hexec with hexec | ⟨x, hx, hnot, hexec⟩
  · refine ⟨⟨hnodup, hexec ▸ hs.once⟩, fun y hy hset => ?_⟩
    rw [hperm.mem_iff]
    exact hs.settled y (hexec ▸ hy) hset
  refine ⟨⟨hnodup, ?_⟩, fun y hy hset => ?_⟩
  · rw [hexec, pairwise_append]
    refine ⟨hs.once, pairwise_singleton _ _, fun y hy z hz hset heq => ?_⟩
    rw [mem_singleton.mp hz] at heq
    exact hs.settled y hy hset (heq ▸ hx)
  · rw [hexec, mem_append, mem_singleton] at hy
    rcases hy with hy | rfl
    · rw [hperm.mem_iff]
      exact hs.settled y hy hset
    · exact absurd hset hnot

theorem Single.finish {x : Issue × Reply} (hs : Single s)
    (hperm : s.outstanding.Perm (x.1 :: s'.outstanding)) (hexec : s'.executed = s.executed ++ [x]) :
    Single s' := by
  obtain ⟨hx, hnodup⟩ := nodup_cons.mp (hperm.nodup_iff.mp hs.single)
  have hgone : ∀ y ∈ s.executed, Settles y → y.1 ≠ x.1 ∧ y.1 ∉ s'.outstanding := by
    intro y hy hset
    have hmem := hs.settled y hy hset
    rw [hperm.mem_iff, mem_cons, not_or] at hmem
    exact hmem
  refine ⟨⟨hnodup, ?_⟩, fun y hy hset => ?_⟩
  · rw [hexec, pairwise_append]
    refine ⟨hs.once, pairwise_singleton _ _, fun y hy z hz hset => ?_⟩
    rw [mem_singleton.mp hz]
    exact (hgone y hy hset).1
  · rw [hexec, mem_append, mem_singleton] at hy
    rcases hy with hy | rfl
    · exact (hgone y hy hset).2
    · exact hx

theorem Single.issue {c : Command} (hs : Single s) (hb : Booked s)
    (hperm : s'.outstanding.Perm (s.next c :: s.outstanding)) (hexec : s'.executed = s.executed) :
    Single s' := by
  have hfresh : s.next c ∉ s.outstanding := fun h => hb.fresh c (hb.outstanding _ h)
  refine ⟨⟨hperm.nodup_iff.mpr (nodup_cons.mpr ⟨hfresh, hs.single⟩), hexec ▸ hs.once⟩, ?_⟩
  intro x hx hset
  rw [hexec] at hx
  rw [hperm.mem_iff, mem_cons, not_or]
  exact ⟨fun h => hb.fresh c (h ▸ hb.executed x hx), hs.settled x hx hset⟩

theorem Move.single (h : Move s s' ev) (hc : ErrSettled s ev) (hb : Booked s) (hp : PodTasks s)
    (hs : Single s) : Single s' := by
  cases h with
  | issue c _ hchan hheld hexec =>
    refine hs.issue (c := c) hb ?_ hexec
    rw [State.outstanding, hchan, hheld, append_assoc]
    exact perm_middle
  | answered e reply hpod hreply _ hchan hheld hexec =>
    refine hs.finish (x := (e, reply)) ?_ hexec
    rw [State.outstanding, hchan, ← hheld]
    exact Perm.refl _
  | refused e hpod _ hchan hheld hexec =>
    refine hs.keep ?_ (.inr ⟨(e, some .unavailable), ?_, by simp [Settles], hexec⟩)
    · rw [State.outstanding, State.outstanding, hchan, hheld]
      exact perm_middle
    · exact mem_outstanding.mpr (.inl (by simp [hchan]))
  | handed e reply hpod _ hchan hheld hexec =>
    have herr : s.err ≠ some .unavailable := hc e (by simp [hchan]) hpod
    obtain ⟨-, hheld⟩ := hheld.resolve_right fun h => herr h.1
    refine hs.keep ?_ (.inl hexec)
    rw [State.outstanding, State.outstanding, hchan]
    exact (hheld.append_left _).trans perm_middle
  | applied e i _ hchan hheld hexec =>
    refine hs.finish (x := (e, none)) ?_ hexec
    rw [State.outstanding, State.outstanding, hchan]
    exact (hheld.append_left _).trans perm_middle
  | failed t i code ht _ hchan hheld hexec =>
    refine hs.keep ?_ (.inr ⟨(t.event, some code), ?_, by simp [Settles, hp t ht], hexec⟩)
    · rw [State.outstanding, State.outstanding, hchan, hheld]
    · exact mem_outstanding.mpr (.inr (mem_append_right _ (mem_map_of_mem ht)))
  | postponed i reply _ hchan hheld hexec =>
    refine hs.keep ?_ (.inl hexec)
    rw [State.outstanding, State.outstanding, hchan, hheld]
  | returned e ev _ hchan hheld hexec =>
    refine hs.keep ?_ (.inl hexec)
    rw [State.outstanding, State.outstanding, hchan, append_assoc]
    exact hheld.symm.append_left _

/-- Commands are not multiplied in any run in which no pod's limit is taken from the channel while
the error of an earlier call is still `Unavailable`. -/
theorem not_multiplied (size : ℕ) (es : List Event) (s : State)
    (hrun : run (step size) start es = some s) (herr : Along (step size) ErrSettled start es) :
    NotMultiplied s := by
  have hinv := run_invariant (I := fun s => Booked s ∧ PodTasks s ∧ Single s)
    (fun s ev s' h hc ⟨hb, hp, hs⟩ =>
      ⟨(step_move h).booked hb, step_podTasks h hp, (step_move h).single hc hb hp hs⟩)
    ⟨start_booked, by simp [PodTasks, start],
      ⟨⟨by simp [start, State.outstanding, State.held], Pairwise.nil⟩, by simp [start]⟩⟩
    herr hrun
  exact hinv.2.2.toNotMultiplied

def registerPod : Command := .registerApp "pod" "info" .net
def unregisterPod : Command := .unRegisterApp "pod" .net
def limitPod (bps : String) : Command := .setAppLimit "1.pod" [⟨"0", bps, 0, bps, 0⟩] .net

/-- The register command finds the service unavailable; the limit behind it is handed to a task and,
for the error left over from the register command, put back as well. -/
theorem limit_multiplied :
    ¬ ∀ (size : ℕ) (es : List Event) (s : State), run (step size) start es = some s →
        NotMultiplied s := by
  intro h
  -- the limit waits with its task and in the channel
  obtain ⟨s, hs, hdup⟩ : ∃ s ∈ run (step chanSize) start
      [.issue registerPod, .issue (limitPod "8"), .handle (some .unavailable), .wake, .handle none,
        .wake], ¬ s.outstanding.Nodup := by
    decide +kernel
  exact hdup (h chanSize _ s hs).single

/-- The register command fails for good; the limit fails once and is then applied. -/
theorem not_multiplied_pod :
    ∃ s, run (step chanSize) start
        [.issue registerPod, .issue (limitPod "8"), .handle (some .other), .handle none,
          .attempt 0 true (some .other), .putBack 0, .handle none, .attempt 0 true none] = some s ∧
      NotMultiplied s ∧ s.effective = [⟨1, limitPod "8"⟩] := by
  refine (exists_run (by decide +kernel) fun s hs _ => ?_).imp fun _ h => ⟨h.1, h.2.symm⟩
  exact not_multiplied chanSize _ s hs (by decide +kernel)

/-! ## Commands are not lost -/

/-- Every issued command is still under way, or a call settled it. -/
def NotLost (s : State) : Prop :=
  ∀ e ∈ s.issued, e ∈ s.outstanding ∨ ∃ x ∈ s.executed, x.1 = e ∧ Settles x

theorem Move.notLost (h : Move s s' ev) (hs : NotLost s) : NotLost s' := by
  intro e he
  have hold := hs e
  rw [mem_outstanding] at hold ⊢
  cases h with
  | issue | refused | failed | postponed => grind
  | answered x reply hpod hreply =>
    have hset : Settles (x, reply) := by
      rcases reply with _ | _ | _ <;> simp_all [Settles]
    grind
  | handed x _ _ _ _ hheld =>
    -- one copy or two: the command stays with a task
    have hmem : e ∈ s'.held ↔ e = x ∨ e ∈ s.held := by
      rcases hheld with ⟨-, hp⟩ | ⟨-, hp⟩ <;> simp [hp.mem_iff]
    clear hheld
    grind
  | applied x _ _ _ hheld =>
    have hset : Settles (x, none) := .inl rfl
    replace hheld := hheld.mem_iff (a := e)
    grind
  | returned _ _ _ _ hheld =>
    replace hheld := hheld.mem_iff (a := e)
    grind

theorem not_lost (size : ℕ) (es : List Event) (s : State)
    (hrun : run (step size) start es = some s) : NotLost s :=
  run_invariant (C := fun _ _ => True) (fun _ _ _ h _ => (step_move h).notLost)
    (by simp [NotLost, start]) (along_true _ _ _) hrun

/-- The register command succeeds after a pause of the handler. The limit is put back twice, by the
handler and by its task, and one of the copies has a task again. -/
theorem not_lost_retried :
    ∃ s, run (step chanSize) start
        [.issue registerPod, .issue (limitPod "8"), .handle (some .unavailable), .wake, .handle none,
          .attempt 0 true (some .other), .wake, .putBack 0, .handle none, .handle none,
          .attempt 0 false none] = some s ∧
      s.outstanding = [⟨1, limitPod "8"⟩, ⟨1, limitPod "8"⟩] ∧ NotLost s :=
  exists_run (by decide +kernel) fun s hs _ => not_lost chanSize _ s hs

/-! ## Commands keep their order -/

def SameApp (x y : Issue) : Prop := x.command.app.isSome ∧ x.command.app = y.command.app

instance (x y : Issue) : Decidable (SameApp x y) := inferInstanceAs (Decidable (_ ∧ _))

theorem SameApp.symm {y : Issue} (h : SameApp x y) : SameApp y x := ⟨h.2 ▸ h.1, h.2.symm⟩

/-- `y` was not issued before `x`, where the two are about one application. -/
def Behind (x y : Issue) : Prop := SameApp x y → x.no ≤ y.no

/-- The last command of a list that fixes a setting. -/
def latest (k : Setting) (l : List Issue) : Option Issue :=
  (l.filter fun e => e.command.sets k).getLast?

/-- Commands of one application take effect in the order they were issued, and a setting whose last
issued command took effect is as that command says. -/
structure KeepsOrder (s : State) : Prop where
  order : s.effective.Pairwise Behind
  final : ∀ k c, latest k s.issued = some c → c ∈ s.effective → latest k s.effective = some c

/-- While a command is outside the channel, no other command of its application is issued or
waits: one that is handed to a task or finds the service unavailable is alone in the channel. -/
def Alone (s : State) : Event → Prop
  | .issue c => ∀ h ∈ s.held, ¬ SameApp h (s.next c)
  | .handle reply =>
    ∀ e ∈ s.clientHandlerChan.head?, e.command.pod ≠ none ∨ reply = some .unavailable →
      ∀ x ∈ s.clientHandlerChan.tail, SameApp e x → x = e
  | _ => True

instance Alone.decidable (s : State) : ∀ ev, Decidable (Alone s ev)
  | .issue _ => inferInstanceAs (Decidable (∀ h ∈ s.held, _))
  | .handle _ => inferInstanceAs (Decidable (∀ e ∈ s.clientHandlerChan.head?, _ → _))
  | .wake | .attempt _ _ _ | .putBack _ => isTrue trivial

theorem mem_effective : e ∈ s.effective ↔ (e, none) ∈ s.executed := by
  simp [State.effective]

structure Ordered (s : State) : Prop where
  chan : s.clientHandlerChan.Pairwise Behind
  held : ∀ h ∈ s.held, ∀ e ∈ s.outstanding, SameApp h e → e = h
  done : ∀ x ∈ s.effective, ∀ e ∈ s.outstanding, Behind x e
  order : s.effective.Pairwise Behind

theorem effective_same (h : s'.executed = s.executed) : s'.effective = s.effective := by
  rw [State.effective, h, State.effective]

theorem effective_failed {code : Code} (h : s'.executed = s.executed ++ [(e, some code)]) :
    s'.effective = s.effective := by
  simp [State.effective, h]

theorem effective_done (h : s'.executed = s.executed ++ [(e, none)]) :
    s'.effective = s.effective ++ [e] := by
  simp [State.effective, h]

theorem Ordered.keep (hs : Ordered s) (hchan : s'.clientHandlerChan.Pairwise Behind)
    (hout : ∀ e ∈ s'.outstanding, e ∈ s.outstanding) (hheld : ∀ e ∈ s'.held, e ∈ s.held)
    (heff : s'.effective = s.effective) : Ordered s' :=
  { chan := hchan
    held := fun h hh e he hsame => hs.held h (hheld h hh) e (hout e he) hsame
    done := fun x hx e he => hs.done x (heff ▸ hx) e (hout e he)
    order := heff ▸ hs.order }

theorem Ordered.apply (hs : Ordered s) (he : e ∈ s.outstanding)
    (hchan : s'.clientHandlerChan.Pairwise Behind) (hout : ∀ x ∈ s'.outstanding, x ∈ s.outstanding)
    (hheld : ∀ x ∈ s'.held, x ∈ s.held) (hfirst : ∀ x ∈ s'.outstanding, Behind e x)
    (heff : s'.effective = s.effective ++ [e]) :
    Ordered s' where
  chan := hchan
  held h hh x hx hsame := hs.held h (hheld h hh) x (hout x hx) hsame
  done x hx y hy := by
    rw [heff, mem_append, mem_singleton] at hx
    rcases hx with hx | rfl
    · exact hs.done x hx y (hout y hy)
    · exact hfirst y hy
  order := by
    rw [heff, pairwise_append]
    refine ⟨hs.order, pairwise_singleton _ _, fun x hx y hy => ?_⟩
    rw [mem_singleton.mp hy]
    exact hs.done x hx e he

theorem Ordered.leave (hs : Ordered s) (hchan : s.clientHandlerChan = e :: s'.clientHandlerChan)
    (hheld : ∀ x ∈ s'.held, x = e ∨ x ∈ s.held)
    (halone : ∀ x ∈ s'.clientHandlerChan, SameApp e x → x = e) (heff : s'.effective = s.effective) :
    Ordered s' := by
  have he : e ∈ s.outstanding := mem_outstanding.mpr (.inl (by simp [hchan]))
  have hout : ∀ x ∈ s'.outstanding, x ∈ s.outstanding := by
    intro x hx
    rw [mem_outstanding] at hx ⊢
    rcases hx with hx | hx
    · exact .inl (hchan ▸ mem_cons_of_mem e hx)
    rcases hheld x hx with rfl | hx
    · exact mem_outstanding.mp he
    · exact .inr hx
  refine ⟨(pairwise_cons.mp (hchan ▸ hs.chan)).2, ?_,
    fun x hx y hy => hs.done x (heff ▸ hx) y (hout y hy), heff ▸ hs.order⟩
  intro h hh x hx hsame
  rcases hheld h hh with rfl | hh
  · rcases mem_outstanding.mp hx with hx | hx
    · exact halone x hx hsame
    rcases hheld x hx with rfl | hx
    · rfl
    · exact (hs.held x hx h he hsame.symm).symm
  · exact hs.held h hh x (hout x hx) hsame

theorem Move.ordered (h : Move s s' ev) (hc : Alone s ev) (hb : Booked s) (hs : Ordered s) :
    Ordered s' := by
  have hlast : ∀ {c : Command}, ∀ x ∈ s.issued, Behind x (s.next c) :=
    fun x hx _ => Nat.le_of_lt (hb.below x hx)
  cases h with
  | issue c _ hchan hheld hexec =>
    have hout : ∀ x ∈ s'.outstanding, x ∈ s.outstanding ∨ x = s.next c := by
      intro x hx
      rw [mem_outstanding, hchan, hheld, mem_append, mem_singleton] at hx
      rw [mem_outstanding]
      tauto
    refine ⟨?_, fun h hh x hx hsame => ?_, fun x hx y hy => ?_, ?_⟩
    · rw [hchan, pairwise_append]
      refine ⟨hs.chan, pairwise_singleton _ _, fun x hx y hy => ?_⟩
      rw [mem_singleton.mp hy]
      exact hlast x (hb.outstanding x (mem_outstanding.mpr (.inl hx)))
    · rw [hheld] at hh
      rcases hout x hx with hx | rfl
      · exact hs.held h hh x hx hsame
      · exact absurd hsame (hc h hh)
    · rw [effective_same hexec] at hx
      rcases hout y hy with hy | rfl
      · exact hs.done x hx y hy
      · exact hlast x (hb.executed _ (mem_effective.mp hx))
    · exact effective_same hexec ▸ hs.order
  | answered e reply hpod hreply _ hchan hheld hexec =>
    have hpair := pairwise_cons.mp (hchan ▸ hs.chan)
    have he : e ∈ s.outstanding := mem_outstanding.mpr (.inl (by simp [hchan]))
    have hout : ∀ x ∈ s'.outstanding, x ∈ s.outstanding := by
      intro x hx
      rw [mem_outstanding, hheld] at hx
      rw [mem_outstanding, hchan]
      exact hx.imp_left (mem_cons_of_mem e)
    cases reply with
    | none =>
      refine hs.apply he hpair.2 hout (fun x hx => hheld ▸ hx) (fun x hx hsame => ?_)
        (effective_done hexec)
      rcases mem_outstanding.mp hx with hx | hx
      · exact hpair.1 x hx hsame
      · rw [hs.held x (hheld ▸ hx) e he hsame.symm]
    | some code =>
      exact hs.keep hpair.2 hout (fun x hx => hheld ▸ hx) (effective_failed hexec)
  | refused e hpod _ hchan hheld hexec =>
    refine hs.leave hchan (fun x hx => ?_) (fun x hx hsame => ?_) (effective_failed hexec)
    · exact mem_cons.mp (hheld ▸ hx)
    · exact hc e (by simp [hchan]) (.inr rfl) x (by simpa [hchan] using hx) hsame
  | handed e reply hpod _ hchan hheld hexec =>
    refine hs.leave hchan (fun x hx => ?_) (fun x hx hsame => ?_) (effective_same hexec)
    · rcases hheld with ⟨-, hp⟩ | ⟨-, hp⟩
      · simpa using hp.mem_iff.mp hx
      · simpa using hp.mem_iff.mp hx
    · exact hc e (by simp [hchan]) (.inl hpod) x (by simpa [hchan] using hx) hsame
  | applied e i _ hchan hheld hexec =>
    have he : e ∈ s.held := hheld.mem_iff.mpr mem_cons_self
    have hsub : ∀ x ∈ s'.held, x ∈ s.held :=
      fun x hx => hheld.mem_iff.mpr (mem_cons_of_mem e hx)
    have hout : ∀ x ∈ s'.outstanding, x ∈ s.outstanding := by
      intro x hx
      rw [mem_outstanding, hchan] at hx
      exact mem_outstanding.mpr (hx.imp_right (hsub x))
    refine hs.apply (mem_outstanding.mpr (.inr he)) (hchan ▸ hs.chan) hout hsub
      (fun x hx hsame => ?_) (effective_done hexec)
    rw [hs.held e he x (hout x hx) hsame]
  | failed t i code ht _ hchan hheld hexec =>
    refine hs.keep (hchan ▸ hs.chan) (fun x hx => ?_) (fun x hx => hheld ▸ hx)
      (effective_failed hexec)
    rwa [State.outstanding, hchan, hheld] at hx
  | postponed i reply _ hchan hheld hexec =>
    refine hs.keep (hchan ▸ hs.chan) (fun x hx => ?_) (fun x hx => hheld ▸ hx)
      (effective_same hexec)
    rwa [State.outstanding, hchan, hheld] at hx
  | returned e ev _ hchan hheld hexec =>
    have he : e ∈ s.held := hheld.mem_iff.mpr mem_cons_self
    have hsub : ∀ x ∈ s'.held, x ∈ s.held :=
      fun x hx => hheld.mem_iff.mpr (mem_cons_of_mem e hx)
    refine hs.keep ?_ (fun x hx => ?_) hsub (effective_same hexec)
    · rw [hchan, pairwise_append]
      refine ⟨hs.chan, pairwise_singleton _ _, fun x hx y hy hsame => ?_⟩
      obtain rfl := mem_singleton.mp hy
      rw [hs.held y he x (mem_outstanding.mpr (.inl hx)) hsame.symm]
    · rw [mem_outstanding, hchan, mem_append, mem_singleton] at hx
      rw [mem_outstanding]
      rcases hx with (hx | rfl) | hx
      · exact .inl hx
      · exact .inr he
      · exact .inr (hsub x hx)

theorem latest_some (h : latest k l = some c) : c ∈ l ∧ c.command.sets k = true := by
  have hmem := mem_of_getLast? h
  simpa using mem_filter.mp hmem

/-- In a list that is ordered by `r`, the last command of a setting comes after the others. -/
theorem latest_max {r : Issue → Issue → Prop} (hl : l.Pairwise r) (h : latest k l = some c)
    (hx : x ∈ l) (hset : x.command.sets k = true) : x = c ∨ r x c := by
  obtain ⟨before, heq⟩ := getLast?_eq_some_iff.mp h
  have hmem : x ∈ before ++ [c] := heq ▸ mem_filter.mpr ⟨hx, hset⟩
  have hpair : (before ++ [c]).Pairwise r := heq ▸ hl.filter _
  rcases mem_append.mp hmem with hmem | hmem
  · exact .inr ((pairwise_append.mp hpair).2.2 x hmem c mem_cons_self)
  · exact .inl (mem_singleton.mp hmem)

/-- Order alone makes the last issued command of a setting, once it took effect, the one that stays. -/
theorem latest_effective (hb : Booked s) (horder : s.effective.Pairwise Behind)
    (hlast : latest k s.issued = some c) (hc : c ∈ s.effective) :
    latest k s.effective = some c := by
  have hset := (latest_some hlast).2
  cases hd : latest k s.effective with
  | none =>
    have hempty := getLast?_eq_none_iff.mp hd
    have hmem : c ∈ s.effective.filter fun e => e.command.sets k := mem_filter.mpr ⟨hc, hset⟩
    rw [hempty] at hmem
    cases hmem
  | some d =>
    obtain ⟨hmem, hdset⟩ := latest_some hd
    have hissued : d ∈ s.issued := hb.executed _ (mem_effective.mp hmem)
    have hsame : SameApp c d := by
      rw [SameApp, Command.app_of_sets hset, Command.app_of_sets hdset]
      exact ⟨rfl, rfl⟩
    -- `d` was not issued after `c`, which is the last one issued, nor did it take effect before it
    rcases latest_max horder hd hc hset with heq | hle
    · rw [heq]
    rcases latest_max hb.numbered hlast hissued hdset with heq | hlt
    · rw [heq]
    · exact absurd (hle hsame) (Nat.not_le_of_lt hlt)

/-- Commands of one application keep their order in every run in which a command that is outside the
channel is the only one of its application under way. -/
theorem kept_in_order (size : ℕ) (es : List Event) (s : State)
    (hrun : run (step size) start es = some s) (halone : Along (step size) Alone start es) :
    KeepsOrder s := by
  have hinv := run_invariant (I := fun s => Booked s ∧ Ordered s)
    (fun s ev s' h hc ⟨hb, hs⟩ => ⟨(step_move h).booked hb, (step_move h).ordered hc hb hs⟩)
    ⟨start_booked, Pairwise.nil, by simp [start, State.held],
      by simp [start, State.effective], Pairwise.nil⟩
    halone hrun
  exact ⟨hinv.2.order, fun k c hlast hc => latest_effective hinv.1 hinv.2.order hlast hc⟩

/-- A pod is registered and unregistered; the service is unavailable for the first call. In the end
the pod is registered. -/
theorem not_kept_in_order :
    ¬ ∀ (size : ℕ) (es : List Event) (s : State), run (step size) start es = some s →
        KeepsOrder s := by
  intro h
  obtain ⟨s, hs, heff⟩ : ∃ s ∈ run (step chanSize) start
      [.issue registerPod, .issue unregisterPod, .handle (some .unavailable), .wake, .handle none,
        .handle none], s.effective = [⟨1, unregisterPod⟩, ⟨0, registerPod⟩] := by
    decide +kernel
  have horder := (h chanSize _ s hs).order
  rw [heff, pairwise_cons] at horder
  have hle : (1 : ℕ) ≤ 0 := horder.1 ⟨0, registerPod⟩ mem_cons_self (by decide)
  exact absurd hle (by decide)

/-- The register command and the limit are tried twice; the unregister command comes after them. -/
theorem kept_in_order_pod :
    ∃ s, run (step chanSize) start
        [.issue registerPod, .handle (some .unavailable), .wake, .issue (limitPod "8"), .handle none,
          .handle none, .attempt 0 false none, .putBack 0, .handle none, .attempt 0 true none,
          .issue unregisterPod, .handle none] = some s ∧
      KeepsOrder s ∧
      s.effective = [⟨0, registerPod⟩, ⟨1, limitPod "8"⟩, ⟨2, unregisterPod⟩] := by
  refine (exists_run (by decide +kernel) fun s hs _ => ?_).imp fun _ h => ⟨h.1, h.2.symm⟩
  exact kept_in_order chanSize _ s hs (by decide +kernel)

end ServiceCommands
end IOIsolation.Agent
