import IOIsolation.Sched.WriteOrder
import Mathlib.Logic.Function.Basic

/-!
# Sched.Quiescence

What the scheduler has written once its work queue is idle: the spec of the node, and the
annotation of every pod it reserved or removed.

Every item carries the whole list of the node but the annotation of one pod only. The worker
skips an item as a whole when a newer list was written, so the list always gets through, and an
annotation can be lost with the item that was overtaken while its retry was waiting.

* `quiescent_spec`       — in every run, an idle queue means that the spec is the current list.
* `quiescent_consistent` — the annotations agree too, if the worker skips no item that is the
  newest of its pod and writes no older annotation after the newest one.
* `not_alwaysConsistent` — without that condition they do not.
-/

namespace IOIsolation.Sched.Quiescence

open Lib Finmap WorkQueue ResourceIOContext Option

/-- What is fixed in a run: the node, the names of the pods (no two pods share one), and the
encoding of the annotation. -/
structure Setting where
  node : String
  node_ne : node ≠ ""
  names : String → PodName
  names_injective : Function.Injective names
  marshal : AllocatedIo → String

/-- The context with its worker, and the generation of the newest call for each pod. -/
structure State where
  w : WorkerState
  newest : Dict String Int
  deriving DecidableEq

inductive Event where
  | addPod (pod : Pod) (req : PodRequest)
  | removePod (pod : Pod)
  | worker (e : WorkerEvent)
  /-- A pod that is not reserved is deleted from the API server. -/
  | deletePod (uid : String)

variable (S : Setting)

def State.call (s : State) (pod : Pod) (l : PodList) (c : ResourceIOContext) : State :=
  { w := { s.w with ctx := c }, newest := s.newest.insert pod.uid (l.generation + 1) }

def step (s : State) : Event → Option State
  | .addPod pod req =>
    match s.w.ctx.reservedpod.lookup S.node with
    | some l =>
      if podKey pod = S.names pod.uid ∧ podKey pod ∈ s.w.api.pods then
        some (s.call pod l (s.w.ctx.addPod req pod S.node).1)
      else none
    | none => none
  | .removePod pod =>
    match s.w.ctx.reservedpod.lookup S.node with
    | some l =>
      if podKey pod = S.names pod.uid ∧ pod.nodeName = S.node then
        some (s.call pod l (s.w.ctx.removePod pod S.node).1)
      else none
    | none => none
  | .worker e => (workerStep S.marshal s.w e).map fun w => { s with w := w }
  | .deletePod uid =>
    match s.w.ctx.reservedpod.lookup S.node with
    | some l =>
      if uid ∈ l.podList then none
      else some { s with w := { s.w with api := { s.w.api with
        pods := s.w.api.pods.erase (S.names uid) } } }
    | none => none

/-- The outputs agree with the list `l` of the node. -/
structure Consistent (s : State) (l : PodList) : Prop where
  list : s.w.ctx.reservedpod.lookup S.node = some l
  spec : s.w.api.specs.lookup S.node = some (ResourceIOContext.specOf S.node l)
  reserved : ∀ uid pr, l.podList.lookup uid = some pr →
    ∃ p text, s.w.api.pods.lookup (S.names uid) = some p ∧
      podRequest2String S.marshal pr = .ok text ∧
      p.annotations.lookup allocatedIOAnno = some text
  removed : ∀ uid ∈ s.newest, uid ∉ l.podList →
    ∀ p, s.w.api.pods.lookup (S.names uid) = some p → allocatedIOAnno ∉ p.annotations

/-- An idle queue, and outputs that agree with the list. -/
structure Start (s : State) (l : PodList) : Prop where
  consistent : Consistent S s l
  idle : s.w.ctx.queue.Idle
  none_newest : s.newest = ∅
  nonneg : 0 ≤ l.generation
  last : lastGen s.w.ctx S.node ≤ l.generation

/-- Whenever the queue is idle the outputs agree with the list, in every run. -/
def AlwaysConsistent : Prop :=
  ∀ (S : Setting) (s t : State) (l : PodList) (es : List Event), Start S s l →
    run (step S) s es = some t → t.w.ctx.queue.Idle → ∃ l', Consistent S t l'

/-! ## The condition -/

def genOf (y : SyncContext) : Option Int := y.spec.map NodeIOStatusSpec.generation

/-- The item of the newest call for the pod is still in the queue. -/
def NewestQueued (s : State) (uid : String) : Prop :=
  ∃ y ∈ s.w.ctx.queue.items, y.pod.uid = uid ∧ genOf y = s.newest.lookup uid

instance (s : State) (uid : String) : Decidable (NewestQueued s uid) := by
  unfold NewestQueued; infer_instance

/-- An item the guard stops is not the newest of its pod; when the worker executes an item, the
newest item of its pod is this one or still queued. -/
def OrderKept (s : State) : Event → Prop
  | .worker (.process _) =>
    ∀ x ∈ s.w.ctx.queue.processing, ∀ g ∈ s.w.guard, ∀ spec ∈ x.spec,
      if spec.generation ≤ g then s.newest.lookup x.pod.uid ≠ some spec.generation
      else NewestQueued s x.pod.uid
  | _ => True

instance OrderKept.decidable (s : State) : ∀ e, Decidable (OrderKept s e)
  | .worker (.process _) => by unfold OrderKept; infer_instance
  | .worker .take => isTrue trivial
  | .worker .read => isTrue trivial
  | .worker (.expire _) => isTrue trivial
  | .addPod _ _ => isTrue trivial
  | .removePod _ => isTrue trivial
  | .deletePod _ => isTrue trivial

/-! ## The invariants -/

/-- What every item in the queue is: a call on the node with a list up to the current one. -/
structure ItemOk (s : State) (l : PodList) (y : SyncContext) (spec : NodeIOStatusSpec) : Prop where
  node : spec.nodeName = S.node
  key : podKey y.pod = S.names y.pod.uid
  le : spec.generation ≤ l.generation
  current : spec.generation = l.generation → spec = ResourceIOContext.specOf S.node l
  newest : s.newest.lookup y.pod.uid = some spec.generation → y.req = l.podList.lookup y.pod.uid

/-- The current list is still queued, and the guard will let it pass. -/
structure Unwritten (s : State) (l : PodList) : Prop where
  queued : ∃ y ∈ s.w.ctx.queue.items, genOf y = some l.generation
  last : lastGen s.w.ctx S.node < l.generation
  guard : ∀ x g, s.w.ctx.queue.processing = some x → s.w.guard = some g → g < l.generation

/-- The current list is written, and the guard will stop every item. -/
structure Written (s : State) (l : PodList) : Prop where
  spec : s.w.api.specs.lookup S.node = some (ResourceIOContext.specOf S.node l)
  waiting : ∀ y ∈ waiting s.w, ∀ spec, y.spec = some spec →
    spec.generation ≤ lastGen s.w.ctx S.node
  guard : ∀ x g spec, s.w.ctx.queue.processing = some x → s.w.guard = some g →
    x.spec = some spec → spec.generation ≤ g

structure SpecInv (s : State) (l : PodList) : Prop where
  list : s.w.ctx.reservedpod.lookup S.node = some l
  nonneg : 0 ≤ l.generation
  last : lastGen s.w.ctx S.node ≤ l.generation
  guard : ∀ x g, s.w.ctx.queue.processing = some x → s.w.guard = some g → g ≤ l.generation
  item : ∀ y ∈ s.w.ctx.queue.items, ∃ spec, y.spec = some spec ∧ ItemOk S s l y spec
  spec : Unwritten S s l ∨ Written S s l

/-- Every pod carries what the list says, or the item that will write it is queued. -/
def AnnoInv (s : State) (l : PodList) : Prop :=
  ∀ uid, uid ∈ l.podList ∨ uid ∈ s.newest →
    NewestQueued s uid ∨
      Carries S.marshal (l.podList.lookup uid) (s.w.api.pods.lookup (S.names uid))

variable {l : PodList} {s : State}

theorem start_specInv (h : Start S s l) : SpecInv S s l where
  list := h.consistent.list
  nonneg := h.nonneg
  last := h.last
  guard := fun _ _ hx =>
    absurd (mem_items.mpr (.inl hx)) (not_mem_items_of_idle h.idle)
  item := fun _ hy => absurd hy (not_mem_items_of_idle h.idle)
  spec := .inr {
    spec := h.consistent.spec
    waiting := fun _ hy =>
      absurd (mem_items_of_waiting hy) (not_mem_items_of_idle h.idle)
    guard := fun _ _ _ hx =>
      absurd (mem_items.mpr (.inl hx)) (not_mem_items_of_idle h.idle) }

theorem start_annoInv (h : Start S s l) : AnnoInv S s l := by
  intro uid huid
  rw [h.none_newest] at huid
  refine .inr ?_
  cases hl : l.podList.lookup uid with
  | some pr => exact h.consistent.reserved uid pr hl
  | none =>
    rcases huid with huid | huid
    · exact absurd huid (lookup_eq_none.mp hl)
    · exact absurd huid notMem_empty

theorem consistent_of_idle (hs : SpecInv S s l) (ha : AnnoInv S s l) (hidle : s.w.ctx.queue.Idle) :
    Consistent S s l := by
  have hnone : ∀ uid, ¬ NewestQueued s uid := by
    rintro uid ⟨y, hy, -⟩
    exact not_mem_items_of_idle hidle hy
  refine ⟨hs.list, ?_, ?_, ?_⟩
  · rcases hs.spec with h | h
    · obtain ⟨y, hy, -⟩ := h.queued
      exact absurd hy (not_mem_items_of_idle hidle)
    · exact h.spec
  · intro uid pr hpr
    have hc := (ha uid (.inl (mem_of_lookup_eq_some hpr))).resolve_left (hnone uid)
    rw [hpr] at hc
    exact hc
  · intro uid hnew hnot
    have hc := (ha uid (.inr hnew)).resolve_left (hnone uid)
    rw [lookup_eq_none.mpr hnot] at hc
    exact hc

/-! ## The worker -/

section worker

variable {w : WorkerState} {e : WorkerEvent} {spec : NodeIOStatusSpec}

theorem target_ne_none {y : SyncContext} (hspec : y.spec = some spec) (hok : ItemOk S s l y spec) :
    y.target ≠ none := by
  have hne : spec.nodeName ≠ "" := hok.node ▸ S.node_ne
  simp [SyncContext.target, hspec, hne]

section

variable (h : SpecInv S s l) (hm : Moves S.marshal s.w e w)
include h hm

theorem worker_write {x : SyncContext} {g : Int} (hx : s.w.ctx.queue.processing = some x)
    (hspec : x.spec = some spec) (hg : s.w.guard = some g) (hlt : g < spec.generation)
    (hnone : w.guard = none) (hlast : lastGen w.ctx S.node = spec.generation)
    (hspecs : w.api.specs = s.w.api.specs.insert spec.nodeName spec) :
    Unwritten S { s with w := w } l ∨ Written S { s with w := w } l := by
  obtain ⟨spec', hspec', hok⟩ := h.item x (mem_items.mpr (.inl hx))
  obtain rfl := mem_unique hspec hspec'
  have hguard : ∀ x' g', w.guard = some g' → x' ∈ w.ctx.queue.processing → False := by
    intro x' g' hg'
    rw [hnone] at hg'; cases hg'
  rcases h.spec with hun | hwr
  · by_cases hcur : spec.generation = l.generation
    · -- the current list: every item left is stopped from now on
      refine .inr ⟨?_, ?_, fun x' g' _ hx' hg' => (hguard x' g' hg' hx').elim⟩
      · rw [hspecs, hok.node, lookup_insert, hok.current hcur]
      intro y hy spec' hspec'
      obtain ⟨spec'', hspec'', hy'⟩ :=
        h.item y (hm.mem_items (mem_items_of_waiting hy))
      obtain rfl := mem_unique hspec' hspec''
      show spec'.generation ≤ lastGen w.ctx S.node
      have := hy'.le
      omega
    · -- an older list: the current one is another item
      have hle := hok.le
      obtain ⟨y, hy, hgen⟩ := hun.queued
      have hne : s.w.ctx.queue.processing ≠ some y := by
        intro hy'
        obtain rfl := mem_unique hx hy'
        rw [genOf, hspec, map_some, some.injEq] at hgen
        exact hcur hgen
      refine .inl ⟨⟨y, hm.kept hy hne, hgen⟩, ?_, fun x' g' hx' hg' => (hguard x' g' hg' hx').elim⟩
      show lastGen w.ctx S.node < l.generation
      omega
  · have := hwr.guard x g spec hx hg hspec
    omega

theorem worker_no_write (hlast : lastGen w.ctx S.node = lastGen s.w.ctx S.node)
    (hspecs : w.api.specs = s.w.api.specs) (hwrites : w.api.writes = s.w.api.writes) :
    Unwritten S { s with w := w } l ∨ Written S { s with w := w } l := by
  rcases h.spec with hun | hwr
  · obtain ⟨y, hy, hgen⟩ := hun.queued
    refine .inl ⟨⟨y, ?_, hgen⟩, by show lastGen w.ctx S.node < _; rw [hlast]; exact hun.last, ?_⟩
    · by_contra hgone
      obtain ⟨hproc, hdrop⟩ := hm.dropped hy hgone
      obtain ⟨spec, hspec, hok⟩ := h.item y hy
      rcases hdrop with ht | ⟨f, g, spec', -, hg, hspec', hle | ⟨hw, -⟩⟩
      · exact target_ne_none S hspec hok ht
      · rw [genOf, hspec', map_some, some.injEq] at hgen
        have := hun.guard y g hproc hg
        omega
      · rw [hwrites] at hw
        exact absurd hw.symm (by simp)
    · intro x g hx hg
      rcases hm.guards hx hg with ⟨hx, hg⟩ | ⟨hx, spec, hspec, rfl⟩
      · exact hun.guard x g hx hg
      obtain ⟨spec', hspec', hok⟩ := h.item x (mem_items_of_waiting hx)
      obtain rfl := mem_unique hspec hspec'
      rw [hok.node]
      exact hun.last
  · refine .inr ⟨by show w.api.specs.lookup _ = _; rw [hspecs]; exact hwr.spec, ?_, ?_⟩
    · intro y hy spec hspec
      rw [hlast]
      rcases hm.waits hy with hy | ⟨g, spec', hx, hg, hspec', hlt⟩
      · exact hwr.waiting y hy spec hspec
      · have := hwr.guard y g spec' hx hg hspec'
        omega
    · intro x g spec hx hg hspec
      rcases hm.guards hx hg with ⟨hx, hg⟩ | ⟨hx, spec', hspec', rfl⟩
      · exact hwr.guard x g spec hx hg hspec
      obtain ⟨spec'', hspec'', hok⟩ := h.item x (mem_items_of_waiting hx)
      rw [hspec] at hspec' hspec''
      cases hspec'
      cases hspec''
      rw [hok.node]
      exact hwr.waiting x hx spec hspec

theorem worker_specInv : SpecInv S { s with w := w } l := by
  have hitem : ∀ y ∈ w.ctx.queue.items, ∃ spec, y.spec = some spec ∧
      ItemOk S { s with w := w } l y spec := by
    intro y hy
    obtain ⟨spec, hspec, hok⟩ := h.item y (hm.mem_items hy)
    exact ⟨spec, hspec, { hok with }⟩
  have hguard : ∀ x g, w.ctx.queue.processing = some x → w.guard = some g →
      g ≤ l.generation := by
    intro x g hx hg
    rcases hm.guards hx hg with ⟨hx, hg⟩ | ⟨hx, spec, hspec, rfl⟩
    · exact h.guard x g hx hg
    obtain ⟨spec', hspec', hok⟩ := h.item x (mem_items_of_waiting hx)
    obtain rfl := mem_unique hspec hspec'
    rw [hok.node]
    exact h.last
  have hlist : w.ctx.reservedpod.lookup S.node = some l := hm.reservedpod ▸ h.list
  rcases hm.writes with ⟨hlast, hspecs, hwrites⟩ |
    ⟨x, spec, g, hx, hspec, hg, hlt, hnone, hlast, hspecs, -⟩
  · have hsame : lastGen w.ctx S.node = lastGen s.w.ctx S.node := by
      unfold lastGen
      rw [hlast]
    exact ⟨hlist, h.nonneg, hsame ▸ h.last, hguard, hitem,
      worker_no_write S h hm hsame hspecs hwrites⟩
  · obtain ⟨spec', hspec', hok⟩ := h.item x (mem_items.mpr (.inl hx))
    obtain rfl := mem_unique hspec hspec'
    have hnew : lastGen w.ctx S.node = spec.generation := by
      unfold lastGen
      rw [hlast, hok.node, lookup_insert, getD_some]
    exact ⟨hlist, h.nonneg, hnew ▸ hok.le, hguard, hitem,
      worker_write S h hm hx hspec hg hlt hnone hnew hspecs⟩

/-- The worker keeps the item of a pod's newest call, or gives the pod its annotation. -/
theorem worker_newest (hc : OrderKept s (.worker e)) {uid : String} (hq : NewestQueued s uid) :
    NewestQueued { s with w := w } uid ∨
      Carries S.marshal (l.podList.lookup uid) (w.api.pods.lookup (S.names uid)) := by
  obtain ⟨y, hy, rfl, hgen⟩ := hq
  by_cases hkept : y ∈ w.ctx.queue.items
  · exact .inl ⟨y, hkept, rfl, hgen⟩
  obtain ⟨hproc, hdrop⟩ := hm.dropped hy hkept
  obtain ⟨spec, hspec, hok⟩ := h.item y hy
  have hnew : s.newest.lookup y.pod.uid = some spec.generation := by
    rw [← hgen, genOf, hspec, map_some]
  rcases hdrop with ht | ⟨f, g, spec', rfl, hg, hspec', hle | ⟨-, ha⟩⟩
  · exact absurd ht (target_ne_none S hspec hok)
  · obtain rfl := mem_unique hspec hspec'
    have hskip := hc y hproc g hg spec hspec
    rw [if_pos hle] at hskip
    exact absurd hnew hskip
  · rw [← hok.newest hnew, ← hok.key]
    exact .inr (annotate_ok S.marshal ha).2

end

theorem worker_annoInv (h : SpecInv S s l) (ha : AnnoInv S s l) (hm : Moves S.marshal s.w e w)
    (hc : OrderKept s (.worker e)) : AnnoInv S { s with w := w } l := by
  intro uid huid
  rcases ha uid huid with hq | hcar
  · exact worker_newest S h hm hc hq
  rcases hm.pods with hp | ⟨f, x, g, spec, rfl, hx, hg, hspec, hlt, hp⟩
  · refine .inr ?_
    rw [hp]
    exact hcar
  by_cases hu : x.pod.uid = uid
  · -- the worker overwrites the annotation, but the newest item of the pod is still to come
    have hexec := hc x hx g hg spec hspec
    rw [if_neg (by omega), hu] at hexec
    exact worker_newest S h hm hc hexec
  obtain ⟨spec', -, hok⟩ := h.item x (mem_items.mpr (.inl hx))
  refine .inr ?_
  rw [(annotate_ok S.marshal hp).1 (S.names uid) ?_]
  · exact hcar
  · rw [hok.key]
    exact fun heq => hu (S.names_injective heq).symm

end worker

/-! ## The calls -/

/-- What `AddPod` and `RemovePod` share: the next list, and an item with it and the pod's request
behind the others. -/
structure Calls (s : State) (pod : Pod) (req : Option PodRequest) (l l' : PodList)
    (c : ResourceIOContext) : Prop where
  list : c.reservedpod.lookup S.node = some l'
  generation : l'.generation = l.generation + 1
  others : ∀ uid, uid ≠ pod.uid → l'.podList.lookup uid = l.podList.lookup uid
  wanted : req = l'.podList.lookup pod.uid
  queue : c.queue = s.w.ctx.queue.add ⟨some (ResourceIOContext.specOf S.node l'), pod, req⟩
  last : lastGen c S.node ≤ l.generation

theorem addPod_calls (pod : Pod) (req : PodRequest) (h : SpecInv S s l) :
    Calls S s pod (some req) l ⟨l.generation + 1, l.podList.insert pod.uid req⟩
      (s.w.ctx.addPod req pod S.node).1 := by
  rw [addPod_of_lookup h.list]
  refine ⟨lookup_insert _, rfl, fun uid hne => lookup_insert_of_ne _ hne,
    (lookup_insert l.podList).symm, rfl, ?_⟩
  show ((s.w.ctx.lastUpdatedGen.insert S.node (-1)).lookup S.node).getD (-1) ≤ l.generation
  rw [lookup_insert, getD_some]
  have := h.nonneg
  omega

theorem removePod_calls (pod : Pod) (h : SpecInv S s l) (hn : pod.nodeName = S.node) :
    Calls S s pod none l ⟨l.generation + 1, l.podList.erase pod.uid⟩
      (s.w.ctx.removePod pod S.node).1 := by
  rw [removePod_of_lookup hn h.list]
  exact ⟨lookup_insert _, rfl, fun uid hne => lookup_erase_ne hne,
    (lookup_erase pod.uid l.podList).symm, rfl, h.last⟩

section calls

variable {pod : Pod} {req : Option PodRequest} {l' : PodList}
  {c : ResourceIOContext}

theorem call_specInv (h : SpecInv S s l) (hcall : Calls S s pod req l l' c)
    (hkey : podKey pod = S.names pod.uid) : SpecInv S (s.call pod l c) l' := by
  have hgen := hcall.generation
  have hguard : ∀ x g, c.queue.processing = some x → s.w.guard = some g → g ≤ l.generation := by
    intro x g hx hg
    rw [hcall.queue] at hx
    exact h.guard x g hx hg
  refine ⟨hcall.list, ?_, ?_, ?_, ?_, .inl ⟨?_, ?_, ?_⟩⟩
  · have := h.nonneg
    omega
  · have := hcall.last
    show lastGen c S.node ≤ _
    omega
  · intro x g hx hg
    have := hguard x g hx hg
    omega
  · intro y hy
    rw [State.call] at hy
    simp only [hcall.queue, mem_items_add] at hy
    rcases hy with rfl | hy
    · exact ⟨_, rfl, rfl, hkey, le_rfl, fun _ => rfl, fun _ => hcall.wanted⟩
    -- an older item of the same pod is not the newest any more
    obtain ⟨spec, hspec, hok⟩ := h.item y hy
    have hle := hok.le
    refine ⟨spec, hspec, hok.node, hok.key, by omega, fun heq => by omega, ?_⟩
    intro hnew
    rw [State.call, Dict.lookup_insert_ite] at hnew
    by_cases hu : y.pod.uid = pod.uid
    · rw [if_pos hu, some.injEq] at hnew
      omega
    rw [if_neg hu] at hnew
    rw [hcall.others _ hu]
    exact hok.newest hnew
  · refine ⟨⟨some (specOf S.node l'), pod, req⟩, ?_, rfl⟩
    show _ ∈ c.queue.items
    rw [hcall.queue]
    exact mem_items_add.mpr (.inl rfl)
  · have := hcall.last
    show lastGen c S.node < _
    omega
  · intro x g hx hg
    have := hguard x g hx hg
    omega

theorem call_annoInv (ha : AnnoInv S s l) (hcall : Calls S s pod req l l' c) :
    AnnoInv S (s.call pod l c) l' := by
  intro uid huid
  by_cases hu : uid = pod.uid
  · -- the item of this call
    subst hu
    refine .inl ⟨⟨some (specOf S.node l'), pod, req⟩, ?_, rfl, ?_⟩
    · show _ ∈ c.queue.items
      rw [hcall.queue]
      exact mem_items_add.mpr (.inl rfl)
    · show some l'.generation = (s.newest.insert pod.uid (l.generation + 1)).lookup pod.uid
      rw [lookup_insert, hcall.generation]
  · have hnewest : (s.call pod l c).newest.lookup uid = s.newest.lookup uid :=
      lookup_insert_of_ne _ hu
    have hold : uid ∈ l.podList ∨ uid ∈ s.newest := by
      refine huid.imp (fun hm => ?_) fun hm => ?_
      · rw [← lookup_isSome, hcall.others uid hu, lookup_isSome] at hm
        exact hm
      · rw [← lookup_isSome, hnewest, lookup_isSome] at hm
        exact hm
    rcases ha uid hold with ⟨y, hy, hyu, hgen⟩ | hcar
    · refine .inl ⟨y, ?_, hyu, hgen.trans hnewest.symm⟩
      show y ∈ c.queue.items
      rw [hcall.queue]
      exact mem_items_add.mpr (.inr hy)
    · rw [hcall.others uid hu]
      exact .inr hcar

end calls

/-! ## Runs -/

/-- One step keeps the list invariant, and under the condition the annotations too. -/
theorem step_inv {s' : State} {e : Event} (hs : step S s e = some s') (h : SpecInv S s l) :
    ∃ l', SpecInv S s' l' ∧ (OrderKept s e → AnnoInv S s l → AnnoInv S s' l') := by
  cases e with
  | addPod pod req =>
    simp only [step, h.list] at hs
    split_ifs at hs with hpod
    simp only [some.injEq] at hs
    subst hs
    have hcall := addPod_calls S pod req h
    exact ⟨_, call_specInv S h hcall hpod.1, fun _ ha => call_annoInv S ha hcall⟩
  | removePod pod =>
    simp only [step, h.list] at hs
    split_ifs at hs with hpod
    simp only [some.injEq] at hs
    subst hs
    have hcall := removePod_calls S pod h hpod.2
    exact ⟨_, call_specInv S h hcall hpod.1, fun _ ha => call_annoInv S ha hcall⟩
  | worker e =>
    obtain ⟨w, hw, rfl⟩ := map_eq_some_iff.mp hs
    have hm := workerStep_moves S.marshal hw
    exact ⟨l, worker_specInv S h hm, fun hc ha => worker_annoInv S h ha hm hc⟩
  | deletePod uid =>
    simp only [step, h.list] at hs
    split_ifs at hs with hres
    simp only [some.injEq] at hs
    subst hs
    refine ⟨l, { h with item := ?_, spec := ?_ }, fun _ ha uid' huid' => ?_⟩
    · intro y hy
      obtain ⟨spec, hspec, hok⟩ := h.item y hy
      exact ⟨spec, hspec, { hok with }⟩
    · exact h.spec.imp (fun h => { h with }) fun h => { h with }
    rcases ha uid' huid' with hq | hcar
    · exact .inl hq
    refine .inr ?_
    by_cases hu : uid' = uid
    · subst hu
      rw [lookup_eq_none.mpr hres]
      intro p hp
      rw [lookup_erase] at hp
      cases hp
    · rw [lookup_erase_ne fun heq => hu (S.names_injective heq)]
      exact hcar

/-- In every run the spec of the node is the current list whenever the queue is idle. -/
theorem quiescent_spec {t : State} {es : List Event} (hstart : Start S s l)
    (hrun : run (step S) s es = some t) (hidle : t.w.ctx.queue.Idle) :
    ∃ l', t.w.ctx.reservedpod.lookup S.node = some l' ∧
      t.w.api.specs.lookup S.node = some (specOf S.node l') := by
  have hinv : ∃ l', SpecInv S t l' := by
    refine run_invariant (C := fun _ _ => True) (I := fun s => ∃ l, SpecInv S s l) ?_
      ⟨l, start_specInv S hstart⟩ (along_true _ _ _) hrun
    rintro s e s' hs - ⟨l, h⟩
    obtain ⟨l', h', -⟩ := step_inv S hs h
    exact ⟨l', h'⟩
  obtain ⟨l', h⟩ := hinv
  refine ⟨l', h.list, ?_⟩
  rcases h.spec with hun | hwr
  · obtain ⟨y, hy, -⟩ := hun.queued
    exact absurd hy (not_mem_items_of_idle hidle)
  · exact hwr.spec

/-- In every run that keeps the order of the items of each pod, an idle queue means that spec and
annotations agree with the list of the node. -/
theorem quiescent_consistent {s t : State} {l : PodList} {es : List Event}
    (hstart : Start S s l) (hrun : run (step S) s es = some t)
    (hkept : Along (step S) OrderKept s es) (hidle : t.w.ctx.queue.Idle) :
    ∃ l', Consistent S t l' := by
  have hinv : ∃ l', SpecInv S t l' ∧ AnnoInv S t l' := by
    refine run_invariant (I := fun s => ∃ l, SpecInv S s l ∧ AnnoInv S s l) ?_
      ⟨l, start_specInv S hstart, start_annoInv S hstart⟩ hkept hrun
    rintro s e s' hs hc ⟨l, h, ha⟩
    obtain ⟨l', h', hanno⟩ := step_inv S hs h
    exact ⟨l', h', hanno hc ha⟩
  obtain ⟨l', hs, ha⟩ := hinv
  exact ⟨l', consistent_of_idle S hs ha hidle⟩

/-! The two pods of one node whose annotations are written in turn. -/

open WriteOrder (workerPod workerRequest workerStart noFailure)

theorem name_ne : "n" ≠ "" := by decide

def setting : Setting where
  node := "n"
  node_ne := name_ne
  names := fun uid => ⟨uid, "default"⟩
  names_injective := fun _ _ h => (PodName.mk.inj h).1
  marshal := fun _ => "allocated"

def start : State := ⟨workerStart, ∅⟩

theorem start_start : Start setting start ⟨0, ∅⟩ where
  consistent := {
    list := by decide +kernel
    spec := by decide +kernel
    reserved := fun uid pr h => by rw [lookup_empty] at h; cases h
    removed := fun uid h => absurd h notMem_empty }
  idle := by decide
  none_newest := rfl
  nonneg := le_rfl
  last := by decide

def addEvent (uid : String) : Event := .addPod (workerPod uid) (workerRequest uid)

def handle (f : ApiFailures) : List Event :=
  [.worker .take, .worker .read, .worker (.process f)]

/-- What is seen of the first pod: its reservation and its annotation, once the queue is idle. -/
def observe (t : State) : Bool × Option (Option PodRequest) × Option (Option String) :=
  (decide t.w.ctx.queue.Idle,
    (t.w.ctx.reservedpod.lookup "n").map fun l => l.podList.lookup "a",
    (t.w.api.pods.lookup ⟨"a", "default"⟩).map fun p => p.annotations.lookup allocatedIOAnno)

/-- The retry of the first annotation is skipped because the second list was written. -/
def overtaken : List Event :=
  [addEvent "a"] ++ handle { noFailure with patchPod := some "timeout" } ++
    [addEvent "b"] ++ handle noFailure ++ [Event.worker (.expire 0)] ++ handle noFailure

theorem not_alwaysConsistent : ¬ AlwaysConsistent := by
  intro h
  obtain ⟨t, ht, hobs⟩ : ∃ t ∈ run (step setting) start overtaken,
      observe t = (true, some (some (workerRequest "a")), some none) := by decide +kernel
  simp only [observe, Prod.mk.injEq, decide_eq_true_eq, map_eq_some_iff] at hobs
  obtain ⟨hidle, ⟨l, hl, hpr⟩, p, hp, hanno⟩ := hobs
  obtain ⟨l', hc⟩ := h setting start t ⟨0, ∅⟩ overtaken start_start ht hidle
  have hlist := hc.list
  rw [show t.w.ctx.reservedpod.lookup setting.node = some l from hl, some.injEq] at hlist
  subst hlist
  obtain ⟨p', text, hp', -, htext⟩ := hc.reserved "a" _ hpr
  rw [show t.w.api.pods.lookup (setting.names "a") = some p from hp, some.injEq] at hp'
  subst hp'
  rw [hanno] at htext
  cases htext

theorem quiescent_spec_overtaken :
    ∃ t, run (step setting) start overtaken = some t ∧ t.w.ctx.queue.Idle ∧
      ∃ l, t.w.ctx.reservedpod.lookup "n" = some l ∧
        t.w.api.specs.lookup "n" = some (specOf "n" l) :=
  exists_run (by decide +kernel) fun _ ht hidle => quiescent_spec setting start_start ht hidle

/-- The retry is handled before the second pod is reserved. -/
def inTurn : List Event :=
  [addEvent "a"] ++ handle { noFailure with patchPod := some "timeout" } ++
    [Event.worker (.expire 0)] ++ handle noFailure ++ [addEvent "b"] ++ handle noFailure

theorem quiescent_consistent_inTurn :
    ∃ t, run (step setting) start inTurn = some t ∧
      observe t = (true, some (some (workerRequest "a")), some (some "allocated")) ∧
      ∃ l, Consistent setting t l := by
  refine exists_run (by decide +kernel) fun t ht hobs => ?_
  have hidle : t.w.ctx.queue.Idle := of_decide_eq_true (congrArg Prod.fst hobs)
  exact quiescent_consistent setting start_start ht (by decide +kernel) hidle

end IOIsolation.Sched.Quiescence
