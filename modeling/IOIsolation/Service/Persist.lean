import IOIsolation.Lib.Dict

/-!
# Service.Persist

What the engines of the node's I/O service share: the table of registered applications, the bucket
of the database it is kept in, and the replies to requests. A record is stored under its own
application name, in memory and in the bucket, which `AppTable` carries. Encoding to JSON and back
gives the record again.

* `registerChecked`, `deleteAppInfo` — `RegisterApp` enters an application into memory first and into
  the database second, `UnRegisterApp` takes it out the other way round; the database may fail.
* `registerChecked_same_iff` — when a failed registration leaves no trace.
-/

namespace IOIsolation.Service

open Lib

/-! ## Replies -/

inductive Code where
  | alreadyExists
  | notFound
  deriving DecidableEq

/-- An error with a gRPC status, or a plain one. -/
inductive Error where
  | status (code : Code) (message : String)
  | plain (message : String)
  deriving DecidableEq

inductive ResponseState where
  | ok
  | fail
  deriving DecidableEq

structure RegisterAppRequest where
  appName : String
  appInfo : String
  deriving DecidableEq

structure RegisterAppResponse where
  appId : String
  status : ResponseState
  deriving DecidableEq

/-- The two results of `RegisterApp`; either may be nil. -/
structure Reply where
  response : Option RegisterAppResponse
  err : Option Error
  deriving DecidableEq

/-- An error or status `FAIL` is returned. -/
def Reply.Failed (r : Reply) : Prop :=
  r.err ≠ none ∨ r.response.map RegisterAppResponse.status = some .fail

instance (r : Reply) : Decidable r.Failed := inferInstanceAs (Decidable (_ ∨ _))

def replyOk (appName : String) : Reply := ⟨some ⟨appName, .ok⟩, none⟩

def replyFail (appName message : String) : Reply := ⟨some ⟨appName, .fail⟩, some (.plain message)⟩

theorem replyOk_not_failed (appName : String) : ¬ (replyOk appName).Failed := by
  simp [Reply.Failed, replyOk]

theorem replyFail_failed (appName message : String) : (replyFail appName message).Failed :=
  .inl (by simp [replyFail])

/-! ## Tables of applications -/

variable {α : Type} {name : α → String}

/-- Applications by name. Each record is kept under the name it carries. -/
@[ext]
structure AppTable (name : α → String) where
  apps : Dict String α
  named : ∀ k a, apps.lookup k = some a → name a = k

namespace AppTable

def empty : AppTable name := ⟨∅, fun k a h => by simp at h⟩

def lookup (t : AppTable name) (k : String) : Option α := t.apps.lookup k

def insert (t : AppTable name) (a : α) : AppTable name where
  apps := t.apps.insert (name a) a
  named k b h := by
    rw [Dict.lookup_insert_ite] at h
    split at h
    · next hk => rw [← Option.some.inj h]; exact hk.symm
    · exact t.named k b h

def erase (t : AppTable name) (k : String) : AppTable name where
  apps := t.apps.erase k
  named x a h := by
    rw [Dict.lookup_erase_ite] at h
    split at h
    · cases h
    · exact t.named x a h

theorem lookup_insert (t : AppTable name) (a : α) (k : String) :
    (t.insert a).lookup k = if k = name a then some a else t.lookup k :=
  Dict.lookup_insert_ite (name a) k a t.apps

theorem lookup_erase (t : AppTable name) (k x : String) :
    (t.erase k).lookup x = if x = k then none else t.lookup x :=
  Dict.lookup_erase_ite k x t.apps

variable {t : AppTable name} {a : α}

theorem ext_lookup {u : AppTable name} (h : ∀ k, t.lookup k = u.lookup k) : t = u :=
  AppTable.ext (Finmap.ext_lookup h)

theorem insert_ne_self (h : t.lookup (name a) = none) : t.insert a ≠ t := by
  intro heq
  have hlook := lookup_insert t a (name a)
  rw [heq, h, if_pos rfl] at hlook
  cases hlook

variable {k : String}

theorem insert_self (h : t.lookup k = some a) : t.insert a = t := by
  refine AppTable.ext (Dict.insert_lookup ?_)
  rw [t.named k a h]
  exact h

theorem erase_insert (h : t.lookup (name a) = none) : (t.insert a).erase (name a) = t := by
  refine ext_lookup fun k => ?_
  rw [lookup_erase, lookup_insert]
  split
  · next hk => rw [hk, h]
  · rfl

theorem erase_of_none (h : t.lookup k = none) : t.erase k = t := by
  refine ext_lookup fun x => ?_
  rw [lookup_erase]
  split
  · next hx => rw [hx, h]
  · rfl

end AppTable

/-- `Apps` of an engine, and the bucket `APPS` of its part of the database. -/
@[ext]
structure Tables (name : α → String) where
  apps : AppTable name
  stored : AppTable name

/-- `AddAppInfo`: the write succeeds (`saved`) or not; an empty key is refused. -/
def addAppInfo (stored : AppTable name) (a : α) (saved : Bool) : Option (AppTable name) :=
  if name a = "" then none else if saved then some (stored.insert a) else none

/-- The end of `RegisterApp` of the disk and the RDT engine, after their checks. -/
def insertAndSave (t : Tables name) (a : α) (saved : Bool) : Reply × Tables name :=
  let apps := t.apps.insert a
  match addAppInfo t.stored a saved with
  | some stored => (replyOk (name a), ⟨apps, stored⟩)
  | none => (replyFail (name a) "persistent file failed", ⟨apps, t.stored⟩)

/-- `RegisterApp` of the disk and the RDT engine; `check` is what their checks come to, the record
to be entered or the reply. -/
def registerChecked (t : Tables name) (check : Except Reply α) (saved : Bool) :
    Reply × Tables name :=
  match check with
  | .error reply => (reply, t)
  | .ok a => insertAndSave t a saved

/-- The application is taken out of the database, then out of memory. That the first may fail is
only logged. -/
def deleteAppInfo (t : Tables name) (appId : String) (deleted : Bool) : Tables name :=
  match t.apps.lookup appId with
  | some a => ⟨t.apps.erase appId, if deleted then t.stored.erase (name a) else t.stored⟩
  | none => t

variable {t : Tables name} {a : α}

theorem insertAndSave_eq (hname : name a ≠ "") (saved : Bool) :
    insertAndSave t a saved =
      if saved then (replyOk (name a), ⟨t.apps.insert a, t.stored.insert a⟩)
      else (replyFail (name a) "persistent file failed", ⟨t.apps.insert a, t.stored⟩) := by
  cases saved <;> simp [insertAndSave, addAppInfo, hname]

theorem deleteAppInfo_eq {appId : String} (h : t.apps.lookup appId = some a) (deleted : Bool) :
    deleteAppInfo t appId deleted =
      ⟨t.apps.erase appId, if deleted then t.stored.erase appId else t.stored⟩ := by
  simp only [deleteAppInfo, h, t.apps.named appId a h]

/-- A failure leaves no trace unless the checks are passed: a new application that could not be
stored stays in memory. The checks are passed with `x` if `P x`, and `f x` is then the record. -/
theorem registerChecked_same_iff {β : Type} {P : β → Prop} {f : β → α} {check : Except Reply α}
    {saved : Bool} (hcheck : ∀ {a}, check = .ok a ↔ ∃ x, P x ∧ a = f x)
    (hnew : ∀ x, P x → name (f x) ≠ "" ∧ t.apps.lookup (name (f x)) = none) :
    ((registerChecked t check saved).1.Failed → (registerChecked t check saved).2 = t) ↔
      ∀ x, P x → saved = true := by
  cases check with
  | error reply =>
    refine iff_of_true (fun _ => rfl) fun x hx => ?_
    cases hcheck.mpr ⟨x, hx, rfl⟩
  | ok a =>
    obtain ⟨x, hx, rfl⟩ := hcheck.mp rfl
    obtain ⟨hname, hfresh⟩ := hnew x hx
    simp only [registerChecked, insertAndSave_eq hname]
    cases saved with
    | true => simp [replyOk_not_failed]
    | false =>
      refine iff_of_false (fun h => ?_) fun h => Bool.false_ne_true (h x hx)
      exact AppTable.insert_ne_self hfresh (congrArg Tables.apps (h (replyFail_failed _ _)))

/-- What `os.Stat` and `os.Readlink` find: the path exists, and it is a symbolic link. -/
structure Files where
  stat : String → Bool
  readlink : String → Bool

end IOIsolation.Service
