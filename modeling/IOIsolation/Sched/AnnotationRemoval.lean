import IOIsolation.Sched.ConflictRetry

/-!
# Sched.AnnotationRemoval

`DeleteAnnoOnPod` on a pod that has changed since the scheduler got its copy. The function reads the pod as
it is now, but it makes the new object from the copy; the patch is the difference of the two, and takes
back whatever has changed in between.

* `deleteAnnoOnPod_stored` — after a success the pod is the copy without the annotation.
* `removed_iff`            — which is right exactly if copy and pod differ in the annotation only.
* `not_alwaysRemoved`      — an annotation that another client has added since is lost.
-/

namespace IOIsolation.Sched.ConflictRetry

open Lib

variable {Spec Status : Type}

/-- The pod without an annotation, and otherwise as it is. -/
def PodObject.withoutAnno (key : String) (p : PodObject Spec Status) : PodObject Spec Status :=
  { p with annotations := p.annotations.erase key }

theorem attempt_of_ok {Obj : Type} {failure : String} {newObj : Obj → Obj} {as : Nat → Attempt Obj}
    {live stored : Obj} (hread : (as 0).read = .ok live)
    (h : retryOnConflict (fun i => attempt failure (fun p => .ok (newObj p)) (as i)) = .ok stored) :
    stored = newObj live := by
  have hfirst : ∀ e, (as 0).read = .error e → e.isConflict = false := by
    intro e he
    rw [hread] at he
    cases he
  have hnew : ∀ obj e, (.ok (newObj obj) : Except GoError Obj) = .error e → e.isConflict = false := by
    intro obj e he
    cases he
  rw [retryOnConflict_attempt hfirst hnew, attempt, hread] at h
  cases hwrite : (as 0).write with
  | some e =>
    rw [hwrite] at h
    cases h
  | none =>
    rw [hwrite] at h
    cases h
    rfl

section Stored

variable {P : MergePatch (PodObject Spec Status)} {pod : Option (PodObject Spec Status)}
  {live stored : PodObject Spec Status} {as : Nat → Attempt (PodObject Spec Status)}
  (hread : (as 0).read = .ok live)

include hread

/-- A success of either function: the pod it is given is one, and what is stored is made from it and from
the pod that was read. -/
theorem patchAnnotation_stored
    {newPod : PodObject Spec Status → PodObject Spec Status → PodObject Spec Status}
    (h : retryOnConflict (fun i => patchAnnotation P pod newPod (as i)) = .ok stored) :
    ∃ copy, pod = some copy ∧ stored = newPod copy live := by
  cases pod with
  | none =>
    simp only [ patchAnnotation] at h
    cases h
  | some copy =>
    by_cases hunset : copy.name = "" ∨ copy.ns = ""
    · simp only [ patchAnnotation, if_pos hunset] at h
      cases h
    · simp only [patchAnnotation_eq (not_or.mp hunset)] at h
      exact ⟨copy, rfl, attempt_of_ok hread h⟩

theorem addOrUpdateAnnoOnPod_stored {annos : Dict String String}
    (h : addOrUpdateAnnoOnPod P pod annos as = .ok stored) : stored = live.setAnnos annos := by
  unfold addOrUpdateAnnoOnPod at h
  split_ifs at h
  · cases h
  · obtain ⟨copy, -, hstored⟩ := patchAnnotation_stored hread h
    exact hstored

theorem deleteAnnoOnPod_stored {key : String} (h : deleteAnnoOnPod P pod key as = .ok stored) :
    ∃ copy, pod = some copy ∧ stored = copy.withoutAnno key := by
  unfold deleteAnnoOnPod at h
  split_ifs at h
  · cases h
  · exact patchAnnotation_stored hread h

end Stored

theorem withoutAnno_setAnnos {key value : String} {p : PodObject Spec Status}
    (h : key ∉ p.annotations) : (p.setAnnos (Finmap.singleton key value)).withoutAnno key = p := by
  simp only [PodObject.withoutAnno, PodObject.setAnnos, Dict.singleton_union, Dict.erase_insert h]

/-- If `DeleteAnnoOnPod` succeeds, the pod is as before without the annotation exactly if the copy is, apart
from the annotation; and a fresh annotation that was set before is undone exactly if the copy is, apart from
it, the pod as it was before. -/
theorem removed_iff {P : MergePatch (PodObject Spec Status)} {copy live stored : PodObject Spec Status}
    {key : String} {as : Nat → Attempt (PodObject Spec Status)} (hread : (as 0).read = .ok live)
    (hdelete : deleteAnnoOnPod P (some copy) key as = .ok stored) :
    (stored = live.withoutAnno key ↔ copy.withoutAnno key = live.withoutAnno key) ∧
      ∀ (before : PodObject Spec Status) (pod : Option (PodObject Spec Status)) (value : String)
        (asAdd : Nat → Attempt (PodObject Spec Status)), key ∉ before.annotations →
        (asAdd 0).read = .ok before →
        addOrUpdateAnnoOnPod P pod (Finmap.singleton key value) asAdd = .ok live →
        (stored = before ↔ copy.withoutAnno key = live.withoutAnno key) := by
  obtain ⟨copy', heq, rfl⟩ := deleteAnnoOnPod_stored hread hdelete
  cases heq
  refine ⟨.rfl, fun before pod value asAdd hfresh hreadAdd hadd => ?_⟩
  rw [addOrUpdateAnnoOnPod_stored hreadAdd hadd, withoutAnno_setAnnos hfresh]

def podWith (annos : Dict String String) : PodObject Unit Unit :=
  ⟨⟨"1", "web", "default", "n", annos, []⟩, ∅, (), ()⟩

def accepted {Obj : Type} (obj : Obj) (_ : Nat) : Attempt Obj := ⟨.ok obj, none⟩

def annotated : PodObject Unit Unit := podWith (Finmap.singleton allocatedIOAnno "text")

theorem removed_iff_annotated :
    (podWith ∅ = annotated.withoutAnno allocatedIOAnno ↔
      annotated.withoutAnno allocatedIOAnno = annotated.withoutAnno allocatedIOAnno) ∧
      ∀ (before : PodObject Unit Unit) (pod : Option (PodObject Unit Unit)) (value : String)
        (asAdd : Nat → Attempt (PodObject Unit Unit)), allocatedIOAnno ∉ before.annotations →
        (asAdd 0).read = .ok before →
        addOrUpdateAnnoOnPod (wholePatch _) pod (Finmap.singleton allocatedIOAnno value) asAdd =
          .ok annotated →
        (podWith ∅ = before ↔
          annotated.withoutAnno allocatedIOAnno = annotated.withoutAnno allocatedIOAnno) :=
  removed_iff (show (accepted annotated 0).read = .ok annotated from rfl) rfl

def AlwaysRemoved : Prop :=
  ∀ (Spec Status : Type) (P : MergePatch (PodObject Spec Status))
    (copy live stored : PodObject Spec Status) (key : String)
    (as : Nat → Attempt (PodObject Spec Status)), (as 0).read = .ok live →
      deleteAnnoOnPod P (some copy) key as = .ok stored → stored = live.withoutAnno key

/-- The copy of the scheduler is older than an annotation of another client. -/
theorem not_alwaysRemoved : ¬ AlwaysRemoved := by
  intro h
  have hremoved := h Unit Unit (wholePatch _) annotated
    (podWith ((Finmap.singleton allocatedIOAnno "text" : Dict String String).insert "owner" "me"))
    (annotated.withoutAnno allocatedIOAnno) allocatedIOAnno (accepted _) rfl rfl
  have hlost := congrArg (fun p => p.annotations.lookup "owner") hremoved
  exact absurd hlost (by decide +kernel)

end IOIsolation.Sched.ConflictRetry
