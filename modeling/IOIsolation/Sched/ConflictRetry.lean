import IOIsolation.Lib.Retry
import IOIsolation.Sched.EventHandler
import IOIsolation.Sched.Worker

/-!
# Sched.ConflictRetry

The updates of `NodeIOStatus` resources and of pod annotations: each reads the object, changes a copy of
it and writes the copy, in a function that `RetryOnConflict` calls again when it returns a Conflict of the
API server. The functions return the error of the write as a new error with the text of the old one, in
which `RetryOnConflict` does not find the Conflict.

* `Call.run_eq_first`  — of the updates only the first attempt counts.
* `retried_iff`        — so an update succeeds only if there is no conflict at all.
* `not_alwaysRetried`  — one conflict is enough.
-/

namespace IOIsolation.Sched.ConflictRetry

open Lib Finmap

/-! ## Errors -/

inductive StatusReason where
  | notFound
  | conflict
  | other (reason : String)
  deriving DecidableEq

/-- An error of the API server, one made by `fmt.Errorf`, and one made by `fmt.Errorf` around another
(`%w`). -/
inductive GoError where
  | status (reason : StatusReason) (message : String)
  | text (message : String)
  | wrap (message : String) (err : GoError)
  deriving DecidableEq

def GoError.message : GoError → String
  | status _ message => message
  | text message => message
  | wrap message err => message ++ err.message

/-- `IsConflict` finds the reason in the error or in those it is made around. -/
def GoError.isConflict : GoError → Bool
  | status reason _ => reason = .conflict
  | text _ => false
  | wrap _ err => err.isConflict

/-- The `Steps` of `UpdateBackoff`: the number of attempts. -/
def updateBackoffSteps : Nat := 3

def retryOnConflict {α : Type} (fn : Nat → Except GoError α) : Except GoError α :=
  onError GoError.isConflict fn (updateBackoffSteps - 1) 0

/-! ## The updates -/

/-- `CreateTwoWayMergePatch` and what the API server does with the patch. -/
structure MergePatch (Obj : Type) where
  Patch : Type
  diff : Obj → Obj → Patch
  apply : Patch → Obj → Obj
  apply_diff : ∀ old new, apply (diff old new) old = new

/-- A pod with the parts of it that the code only hands on: the labels, the status, and the spec apart from
node and volumes. -/
structure PodObject (Spec Status : Type) extends Pod where
  labels : Dict String String
  spec : Spec
  status : Status

/-- The answers to the two calls of an attempt. -/
structure Attempt (Obj : Type) where
  read : Except GoError Obj
  write : Option GoError

/-- What the updates have in common; a write that succeeds leaves what `write` makes of the object that was
read. -/
def attempt {Obj : Type} (failure : String) (write : Obj → Except GoError Obj) (a : Attempt Obj) :
    Except GoError Obj :=
  match a.read with
  | .error err => .error err
  | .ok obj =>
    match write obj with
    | .error err => .error err
    | .ok newObj =>
      match a.write with
      | some err => .error (.text (failure ++ err.message))
      | none => .ok newObj

def updateNodeIOStatus (name : String) (write : NodeIOStatus → Except GoError NodeIOStatus)
    (a : Attempt NodeIOStatus) : Except GoError NodeIOStatus :=
  if name = "" then .error (.text "node name cannot be empty")
  else attempt "failed to patch the NodeIOStatus: " write a

def updateNodeIOStatusSpec (N : MergePatch NodeIOStatus) (name : String) (obj : NodeIOStatusSpec)
    (as : Nat → Attempt NodeIOStatus) : Except GoError NodeIOStatus :=
  retryOnConflict fun i => updateNodeIOStatus name
    (fun sts => .ok (N.apply (N.diff sts { sts with spec := obj }) sts)) (as i)

def updateNodeIOStatusInType (name : String) (toUpdate : AllocatableBandwidth)
    (as : Nat → Attempt NodeIOStatus) : Except GoError NodeIOStatus :=
  retryOnConflict fun i => updateNodeIOStatus name
    (fun sts => .ok { sts with status := Sched.updateNodeIOStatusInType toUpdate sts.status }) (as i)

def changeDevices (name : String) (t : WorkloadIOType)
    (adds dels : Dict String (Dict WorkloadQoSType IOStatus)) (sts : NodeIOStatus) :
    Except GoError NodeIOStatus :=
  match sts.status.allocatableBandwidth.lookup t with
  | none =>
    let typ := t.text
    .error (.text s!"WorkloadIOType {typ} not found in NodeIOStatus {name}")
  | some devices =>
    .ok { sts with
      status := { sts.status with
        allocatableBandwidth :=
          sts.status.allocatableBandwidth.insert t (Dict.without (adds ∪ devices) dels) } }

def updateNodeIOStatusInDevice (name : String) (t : WorkloadIOType)
    (adds dels : Dict String (Dict WorkloadQoSType IOStatus)) (as : Nat → Attempt NodeIOStatus) :
    Except GoError NodeIOStatus :=
  retryOnConflict fun i => updateNodeIOStatus name (changeDevices name t adds dels) (as i)

variable {Spec Status : Type}

def PodObject.setAnnos (annos : Dict String String) (p : PodObject Spec Status) : PodObject Spec Status :=
  { p with annotations := annos ∪ p.annotations }

/-- Both functions that write an annotation check the pod they are given, and patch the one they read to
what `newPod` makes of it. -/
def patchAnnotation (P : MergePatch (PodObject Spec Status)) (pod : Option (PodObject Spec Status))
    (newPod : PodObject Spec Status → PodObject Spec Status → PodObject Spec Status)
    (a : Attempt (PodObject Spec Status)) : Except GoError (PodObject Spec Status) :=
  match pod with
  | none => .error (.text "pod info is unset")
  | some pod =>
    if pod.name = "" ∨ pod.ns = "" then .error (.text "pod info is unset")
    else attempt "failed to patch the pod: " (fun p => .ok (P.apply (P.diff p (newPod pod p)) p)) a

def addOrUpdateAnnoOnPod (P : MergePatch (PodObject Spec Status))
    (pod : Option (PodObject Spec Status)) (annoToUpdate : Dict String String)
    (as : Nat → Attempt (PodObject Spec Status)) : Except GoError (PodObject Spec Status) :=
  retryOnConflict fun i =>
    if annoToUpdate = ∅ then .error (.text "the annotation is unset")
    else patchAnnotation P pod (fun _ p => p.setAnnos annoToUpdate) (as i)

/-- `DeleteAnnoOnPod` deletes the key from a copy of the pod it is given, not of the one it reads. -/
def deleteAnnoOnPod (P : MergePatch (PodObject Spec Status)) (pod : Option (PodObject Spec Status))
    (key : String) (as : Nat → Attempt (PodObject Spec Status)) :
    Except GoError (PodObject Spec Status) :=
  retryOnConflict fun i =>
    if key = "" then .error (.text "annotation key is unset")
    else
      patchAnnotation P pod (fun pod _ => { pod with annotations := pod.annotations.erase key }) (as i)

theorem retryOnConflict_attempt {Obj : Type} {failure : String} {write : Obj → Except GoError Obj}
    {as : Nat → Attempt Obj} (hread : ∀ e, (as 0).read = .error e → e.isConflict = false)
    (hwrite : ∀ obj e, write obj = .error e → e.isConflict = false) :
    retryOnConflict (fun i => attempt failure write (as i)) = attempt failure write (as 0) := by
  rw [retryOnConflict, onError_of_final fun e he => ?_]
  unfold attempt at he
  split at he
  · rename_i err hr
    cases he
    exact hread _ hr
  split at he
  · rename_i obj _ _ err hw
    cases he
    exact hwrite obj _ hw
  split at he
  · cases he
    rfl
  · cases he

theorem patchAnnotation_eq {P : MergePatch (PodObject Spec Status)} {pod : PodObject Spec Status}
    (hnamed : pod.name ≠ "" ∧ pod.ns ≠ "")
    (newPod : PodObject Spec Status → PodObject Spec Status → PodObject Spec Status)
    (a : Attempt (PodObject Spec Status)) :
    patchAnnotation P (some pod) newPod a =
      attempt "failed to patch the pod: " (fun p => .ok (newPod pod p)) a := by
  have hn : ¬ (pod.name = "" ∨ pod.ns = "") := fun h => h.elim hnamed.1 hnamed.2
  simp only [ patchAnnotation, if_neg hn, P.apply_diff]

/-! ## Calls -/

/-- A call of one of the updates with arguments that pass its checks. -/
inductive Call (Spec Status : Type) where
  | spec (name : String) (obj : NodeIOStatusSpec) (named : name ≠ "")
  | inType (name : String) (toUpdate : AllocatableBandwidth) (named : name ≠ "")
  | inDevice (name : String) (t : WorkloadIOType)
      (adds dels : Dict String (Dict WorkloadQoSType IOStatus)) (named : name ≠ "")
  | anno (pod : PodObject Spec Status) (annoToUpdate : Dict String String)
      (named : pod.name ≠ "" ∧ pod.ns ≠ "") (set : annoToUpdate ≠ ∅)

namespace Call

def Obj : Call Spec Status → Type
  | spec .. => NodeIOStatus
  | inType .. => NodeIOStatus
  | inDevice .. => NodeIOStatus
  | anno .. => PodObject Spec Status

/-- The text in front of the error of a write. -/
def failure : Call Spec Status → String
  | spec .. => "failed to patch the NodeIOStatus: "
  | inType .. => "failed to patch the NodeIOStatus: "
  | inDevice .. => "failed to patch the NodeIOStatus: "
  | anno .. => "failed to patch the pod: "

def change : (c : Call Spec Status) → c.Obj → Except GoError c.Obj
  | spec _ obj _, (sts : NodeIOStatus) => .ok { sts with spec := obj }
  | inType _ toUpdate _, (sts : NodeIOStatus) =>
    .ok { sts with status := Sched.updateNodeIOStatusInType toUpdate sts.status }
  | inDevice name t adds dels _, (sts : NodeIOStatus) => changeDevices name t adds dels sts
  | anno _ annoToUpdate _ _, (p : PodObject Spec Status) => .ok (p.setAnnos annoToUpdate)

variable (N : MergePatch NodeIOStatus) (P : MergePatch (PodObject Spec Status))

def run : (c : Call Spec Status) → (Nat → Attempt c.Obj) → Except GoError c.Obj
  | spec name obj _, as => updateNodeIOStatusSpec N name obj as
  | inType name toUpdate _, as => updateNodeIOStatusInType name toUpdate as
  | inDevice name t adds dels _, as => updateNodeIOStatusInDevice name t adds dels as
  | anno pod annoToUpdate _ _, as => addOrUpdateAnnoOnPod P (some pod) annoToUpdate as

theorem run_eq (c : Call Spec Status) (as : Nat → Attempt c.Obj) :
    c.run N P as = retryOnConflict fun i => attempt c.failure c.change (as i) := by
  cases c with
  | spec name obj named =>
    simp only [run, updateNodeIOStatusSpec, updateNodeIOStatus, if_neg named, N.apply_diff]
    rfl
  | inType name toUpdate named =>
    simp only [run, updateNodeIOStatusInType, updateNodeIOStatus, if_neg named]
    rfl
  | inDevice name t adds dels named =>
    simp only [run, updateNodeIOStatusInDevice, updateNodeIOStatus, if_neg named]
    rfl
  | anno pod annoToUpdate named set =>
    simp only [run, addOrUpdateAnnoOnPod, if_neg set]
    exact congrArg retryOnConflict (funext fun i => patchAnnotation_eq named _ (as i))

theorem change_error {c : Call Spec Status} {obj : c.Obj} {e : GoError}
    (h : c.change obj = .error e) : e.isConflict = false := by
  cases c with
  | spec | inType | anno => cases h
  | inDevice name t adds dels named =>
    simp only [change, changeDevices] at h
    split at h
    · cases h
      rfl
    · cases h

/-- Unless the read itself answers with a Conflict, what the first attempt returns is returned. -/
theorem run_eq_first (c : Call Spec Status) (as : Nat → Attempt c.Obj)
    (hread : ∀ e, (as 0).read = .error e → e.isConflict = false) :
    c.run N P as = attempt c.failure c.change (as 0) := by
  rw [run_eq]
  exact retryOnConflict_attempt hread fun _ _ h => change_error h

end Call

/-- `k` attempts whose writes are answered with a Conflict, and then one that succeeds. Between the attempts
the object changes. -/
def conflicts {Obj : Type} (k : Nat) (messages : Nat → String) (versions : Nat → Obj) (i : Nat) :
    Attempt Obj where
  read := .ok (versions i)
  write := if i < k then some (.status .conflict (messages i)) else none

/-- After fewer conflicts than attempts, an update leaves the version that was read last with the intended
change exactly if there was no conflict. -/
theorem retried_iff (N : MergePatch NodeIOStatus) (P : MergePatch (PodObject Spec Status))
    (c : Call Spec Status) {k : Nat} (hk : k < updateBackoffSteps) (messages : Nat → String)
    (versions newObjs : Nat → c.Obj) (happlies : ∀ i ≤ k, c.change (versions i) = .ok (newObjs i)) :
    c.run N P (conflicts k messages versions) = .ok (newObjs k) ↔ k = 0 := by
  rw [c.run_eq_first N P _ fun e he => by cases he]
  have hfirst := happlies 0 (Nat.zero_le k)
  cases k with
  | zero | succ => simp [attempt, conflicts, hfirst]

def wholePatch (Obj : Type) : MergePatch Obj where
  Patch := Obj
  diff _ new := new
  apply patch _ := patch
  apply_diff _ _ := rfl

def oneSpec : Call Unit Unit := .spec "n" ⟨"n", 1, ∅⟩ (by decide)

def statusVersions (i : Nat) : NodeIOStatus := ⟨⟨"n", 0, ∅⟩, ⟨i, ∅⟩⟩

theorem retried_iff_oneSpec :
    oneSpec.run (wholePatch _) (wholePatch _) (conflicts 2 (fun _ => "modified") statusVersions) =
      .ok (⟨⟨"n", 1, ∅⟩, ⟨2, ∅⟩⟩ : NodeIOStatus) ↔ 2 = 0 :=
  retried_iff _ _ oneSpec (by decide) (fun _ => "modified") statusVersions
    (fun i => (⟨⟨"n", 1, ∅⟩, ⟨i, ∅⟩⟩ : NodeIOStatus)) fun _ _ => rfl

def AlwaysRetried : Prop :=
  ∀ (Spec Status : Type) (N : MergePatch NodeIOStatus) (P : MergePatch (PodObject Spec Status))
    (c : Call Spec Status) (k : Nat), k < updateBackoffSteps → ∀ (messages : Nat → String)
    (versions newObjs : Nat → c.Obj), (∀ i ≤ k, c.change (versions i) = .ok (newObjs i)) →
      c.run N P (conflicts k messages versions) = .ok (newObjs k)

theorem not_alwaysRetried : ¬ AlwaysRetried := by
  intro h
  have hrun := h Unit Unit (wholePatch _) (wholePatch _) oneSpec 1 (by decide) (fun _ => "modified")
    statusVersions (fun i => (⟨⟨"n", 1, ∅⟩, ⟨i, ∅⟩⟩ : NodeIOStatus)) fun _ _ => rfl
  cases hrun

/-! ## The worker -/

/-- A result of an update with retries, and one of the single call that the worker is described with. -/
def Matches {Obj V α : Type} (view : Obj → V) (stored : α → Option V) :
    Except GoError Obj → Except ApiError α → Prop
  | .ok obj, .ok a => stored a = some (view obj)
  | .error e, .error e' => e.message = e'.text
  | _, _ => False

/-- The answers to the first attempt, if the calls fail with `get` and `write` and the object is `obj`. -/
def firstAttempt {Obj : Type} (get write : Option GoError) (obj : Option Obj) : Attempt Obj where
  read :=
    match get, obj with
    | some e, _ => .error e
    | none, none => .error (.status .notFound ApiError.notFound.text)
    | none, some obj => .ok obj
  write := write

theorem firstAttempt_read {Obj : Type} {get write : Option GoError} {obj : Option Obj}
    (hget : ∀ e, get = some e → e.isConflict = false) {e : GoError}
    (h : (firstAttempt get write obj).read = .error e) : e.isConflict = false := by
  cases get with
  | some e' =>
    cases h
    exact hget _ rfl
  | none =>
    cases obj with
    | none =>
      cases h
      rfl
    | some obj => cases h

section Worker

variable {f : ApiFailures} {get write : Option GoError}
  (hconflict : ∀ e, get = some e → e.isConflict = false)

include hconflict

/-- Whatever the write is answered with, the worker writes the spec in one attempt or not at all. -/
theorem updateNodeIOStatusSpec_matches (N : MergePatch NodeIOStatus) {name : String} (hname : name ≠ "")
    (obj : NodeIOStatusSpec) (hget : get.map GoError.message = f.getStatus)
    (hwrite : write.map GoError.message = f.patchStatus) {api : Cluster} {sts : Option NodeIOStatus}
    (hsts : api.specs.lookup name = sts.map (·.spec)) {as : Nat → Attempt NodeIOStatus}
    (has : as 0 = firstAttempt get write sts) :
    Matches (·.spec) (fun api' => api'.specs.lookup name) (updateNodeIOStatusSpec N name obj as)
      (Sched.updateNodeIOStatusSpec f name obj api) := by
  have hrun : updateNodeIOStatusSpec N name obj as = _ :=
    (Call.spec name obj hname).run_eq_first N (wholePatch (PodObject Unit Unit)) as fun e he =>
      firstAttempt_read hconflict (has ▸ he)
  rw [hrun, has, Sched.updateNodeIOStatusSpec, ← hget, ← hwrite, hsts]
  cases get with
  | some e => rfl
  | none =>
    cases sts with
    | none => rfl
    | some sts =>
      cases write with
      | some e => rfl
      | none => exact lookup_insert _

omit hconflict in
theorem updateNodeIOStatusSpec_matches_conflict :
    Matches (·.spec) (fun api => api.specs.lookup "n")
      (updateNodeIOStatusSpec (wholePatch _) "n" ⟨"n", 1, ∅⟩ fun _ =>
        firstAttempt none (some (.status .conflict "modified")) (some (statusVersions 0)))
      (Sched.updateNodeIOStatusSpec ⟨none, none, none, some "modified"⟩ "n" ⟨"n", 1, ∅⟩
        ⟨∅, Finmap.singleton "n" ⟨"n", 0, ∅⟩, []⟩) :=
  updateNodeIOStatusSpec_matches (by nofun) _ (by decide) _ (by rfl) (by rfl) (by rfl) rfl

variable {as : Nat → Attempt (PodObject Spec Status)} {live : Option (PodObject Spec Status)}
  {pod : PodObject Spec Status} {pods : Dict PodName Pod}

theorem patchPod_matches (hget : get.map GoError.message = f.getPod)
    (hwrite : write.map GoError.message = f.patchPod) (hnamed : pod.name ≠ "" ∧ pod.ns ≠ "")
    (hlive : pods.lookup (podKey pod.toPod) = live.map (·.toPod))
    {newPod : PodObject Spec Status → PodObject Spec Status} {change : Pod → Pod}
    (hchange : ∀ p, (newPod p).toPod = change p.toPod) (has : as 0 = firstAttempt get write live) :
    Matches (·.toPod) (fun pods' => pods'.lookup (podKey pod.toPod))
      (retryOnConflict fun i =>
        attempt "failed to patch the pod: " (fun p => .ok (newPod p)) (as i))
      (patchPod f pod.toPod change pods) := by
  have hn : ¬ (pod.toPod.name = "" ∨ pod.toPod.ns = "") := fun h => h.elim hnamed.1 hnamed.2
  rw [retryOnConflict_attempt (fun e he => firstAttempt_read hconflict (has ▸ he))
    (fun obj e h => by cases h), has, patchPod, if_neg hn, ← hget, ← hwrite, hlive]
  cases get with
  | some e => rfl
  | none =>
    cases live with
    | none => rfl
    | some p =>
      cases write with
      | some e => rfl
      | none => exact (lookup_insert _).trans (congrArg some (hchange p).symm)

section

variable (P : MergePatch (PodObject Spec Status)) (hget : get.map GoError.message = f.getPod)
  (hwrite : write.map GoError.message = f.patchPod) (hnamed : pod.name ≠ "" ∧ pod.ns ≠ "")
include P hget hwrite hnamed

theorem addOrUpdateAnnoOnPod_matches (value : String)
    (hlive : pods.lookup (podKey pod.toPod) = live.map (·.toPod))
    (has : as 0 = firstAttempt get write live) :
    Matches (·.toPod) (fun pods' => pods'.lookup (podKey pod.toPod))
      (addOrUpdateAnnoOnPod P (some pod) (Finmap.singleton allocatedIOAnno value) as)
      (Sched.addOrUpdateAnnoOnPod f pod.toPod value pods) := by
  have hset : (Finmap.singleton allocatedIOAnno value : Dict String String) ≠ ∅ :=
    Dict.ne_empty_of_lookup lookup_singleton_eq
  simp only [addOrUpdateAnnoOnPod, if_neg hset, patchAnnotation_eq hnamed]
  refine patchPod_matches hconflict hget hwrite hnamed hlive (fun p => ?_) has
  rw [PodObject.setAnnos, Dict.singleton_union]

theorem deleteAnnoOnPod_matches (hlive : pods.lookup (podKey pod.toPod) = live.map (·.toPod))
    (has : as 0 = firstAttempt get write live) :
    Matches (·.toPod) (fun pods' => pods'.lookup (podKey pod.toPod))
      (deleteAnnoOnPod P (some pod) allocatedIOAnno as) (Sched.deleteAnnoOnPod f pod.toPod pods) := by
  have hkey : allocatedIOAnno ≠ "" := by decide
  simp only [deleteAnnoOnPod, if_neg hkey, patchAnnotation_eq hnamed]
  exact patchPod_matches hconflict hget hwrite hnamed hlive (fun p => rfl) has

end

end Worker

end IOIsolation.Sched.ConflictRetry
