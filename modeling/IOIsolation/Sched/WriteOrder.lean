import IOIsolation.Lib.Run
import IOIsolation.Sched.Worker

/-!
# Sched.WriteOrder

In which order the generations of a node reach its `NodeIOStatus`. Producers (`AddPod`,
`RemovePod`, `SetReservedPods`) and the worker interleave freely, and every API call of the
worker may fail.

The worker skips an item whose generation is not above the last written one. `AddPod` and
`SetReservedPods` forget the last written generation, so an item that was overtaken while its
retry was waiting is written after all.

* `writes_inOrder`     — the generations of every node are written in increasing order as long as
  no such reset meets an overtaken item.
* `not_writesInOrder`  — without that condition they are not.
-/

namespace IOIsolation.Sched.WriteOrder

open Lib ResourceIOContext Option WorkQueue

variable (marshal : AllocatedIo → String)

inductive Event where
  | addPod (req : PodRequest) (pod : Pod) (node : String)
  | removePod (pod : Pod) (node : String)
  | setReservedPods (node : String) (pl : PodList)
  | worker (e : WorkerEvent)

def step (s : WorkerState) : Event → Option WorkerState
  | .addPod req pod node => some { s with ctx := (s.ctx.addPod req pod node).1 }
  | .removePod pod node => some { s with ctx := (s.ctx.removePod pod node).1 }
  | .setReservedPods node pl => some { s with ctx := s.ctx.setReservedPods node pl }
  | .worker e => workerStep marshal s e

def written (api : Cluster) (node : String) : List Int :=
  (api.writes.filter fun w => w.1 = node).map Prod.snd

/-- An older list never overwrites a newer one. -/
def InOrder (api : Cluster) : Prop := ∀ node, (written api node).Pairwise (· < ·)

/-- No item is queued, nothing was written yet, and no list is older than the stored spec, as
`AddNodeStaticIOInfo` leaves them. -/
structure Start (s : WorkerState) : Prop where
  idle : s.ctx.queue.Idle
  fresh : s.api.writes = []
  newer : ∀ node l st, s.ctx.reservedpod.lookup node = some l →
    s.api.specs.lookup node = some st → st.generation ≤ l.generation

def WritesInOrder : Prop :=
  ∀ (marshal : AllocatedIo → String) (s t : WorkerState) (es : List Event), Start s →
    run (step marshal) s es = some t → InOrder t.api

/-! ## The condition -/

/-- The spec is newer than the stored one. -/
def Above (api : Cluster) (spec : NodeIOStatusSpec) : Prop :=
  ∀ st ∈ api.specs.lookup spec.nodeName, st.generation < spec.generation

/-- No item of the node that waits was overtaken by a newer one. -/
def NoneOvertaken (s : WorkerState) (node : String) : Prop :=
  ∀ y ∈ waiting s, ∀ spec ∈ y.spec, spec.nodeName = node → -1 < spec.generation →
    Above s.api spec

/-- The list is at least as new as the stored spec and all queued ones. -/
def Covers (s : WorkerState) (node : String) (pl : PodList) : Prop :=
  (∀ st ∈ s.api.specs.lookup node, st.generation ≤ pl.generation) ∧
    ∀ y ∈ s.ctx.queue.items, ∀ spec ∈ y.spec, spec.nodeName = node →
      spec.generation ≤ pl.generation

/-- A call that resets the last written generation of a node meets no overtaken item; a list is
replaced by one that is not older, and a pod is removed from its own node. -/
def ResetsSafely (s : WorkerState) : Event → Prop
  | .addPod _ _ node => NoneOvertaken s node
  | .removePod pod node => pod.nodeName = node
  | .setReservedPods node pl => NoneOvertaken s node ∧ Covers s node pl
  | .worker _ => True

instance (api : Cluster) (spec : NodeIOStatusSpec) : Decidable (Above api spec) := by
  unfold Above; infer_instance

instance (s : WorkerState) (node : String) : Decidable (NoneOvertaken s node) := by
  unfold NoneOvertaken; infer_instance

instance (s : WorkerState) (node : String) (pl : PodList) : Decidable (Covers s node pl) := by
  unfold Covers; infer_instance

instance ResetsSafely.decidable (s : WorkerState) : ∀ e, Decidable (ResetsSafely s e)
  | .addPod _ _ node => inferInstanceAs (Decidable (NoneOvertaken s node))
  | .removePod pod node => inferInstanceAs (Decidable (pod.nodeName = node))
  | .setReservedPods node pl => inferInstanceAs (Decidable (NoneOvertaken s node ∧ Covers s node pl))
  | .worker _ => isTrue trivial

/-! ## The invariant -/

structure Inv (s : WorkerState) : Prop where
  stored : ∀ node, ∀ g ∈ written s.api node,
    ∃ st, s.api.specs.lookup node = some st ∧ g ≤ st.generation
  order : InOrder s.api
  list : ∀ node l st, s.ctx.reservedpod.lookup node = some l →
    s.api.specs.lookup node = some st → st.generation ≤ l.generation
  queued : ∀ y ∈ s.ctx.queue.items, ∀ spec, y.spec = some spec →
    ∀ l, s.ctx.reservedpod.lookup spec.nodeName = some l → spec.generation ≤ l.generation
  /-- An item that the guard will let pass is newer than the stored spec. -/
  fresh : ∀ y ∈ waiting s, ∀ spec, y.spec = some spec →
    spec.generation ≤ lastGen s.ctx spec.nodeName ∨ Above s.api spec
  guarded : ∀ x g spec, s.ctx.queue.processing = some x → s.guard = some g →
    x.spec = some spec → spec.generation ≤ g ∨ Above s.api spec

variable {g : Int} {x : SyncContext} {l : PodList}

theorem written_append {api api' : Cluster} {name : String}
    (h : api'.writes = api.writes ++ [(name, g)]) (node : String) :
    written api' node = written api node ++ if name = node then [g] else [] := by
  unfold written
  rw [h]
  by_cases hn : name = node <;> simp [hn]

variable {s s' : WorkerState} {e : WorkerEvent} {spec : NodeIOStatusSpec} {node : String}

theorem start_inv (h : Start s) : Inv s where
  stored := by simp [written, h.fresh]
  order := by simp [InOrder, written, h.fresh]
  list := h.newer
  queued := fun _ hy => absurd hy (not_mem_items_of_idle h.idle)
  fresh := fun _ hy =>
    absurd (mem_items_of_waiting hy) (not_mem_items_of_idle h.idle)
  guarded := by
    intro x g spec hx
    exact absurd (mem_items.mpr (.inl hx)) (not_mem_items_of_idle h.idle)

/-! ## The worker -/

section

variable (h : Inv s) (hm : Moves marshal s e s')
include h hm

/-- An item that waits after a step and will pass the guard is newer than the spec stored before
the step. -/
theorem Inv.passes {y : SyncContext} (hy : y ∈ waiting s') (hspec : y.spec = some spec) :
    spec.generation ≤ lastGen s.ctx spec.nodeName ∨ Above s.api spec := by
  rcases hm.waits hy with hy | ⟨g, spec', hx, hg, hspec', hlt⟩
  · exact h.fresh y hy spec hspec
  obtain rfl := mem_unique hspec hspec'
  refine .inr ((h.guarded y g spec hx hg hspec).resolve_left ?_)
  omega

theorem Inv.of_no_write (hlast : s'.ctx.lastUpdatedGen = s.ctx.lastUpdatedGen)
    (hspecs : s'.api.specs = s.api.specs) (hwrites : s'.api.writes = s.api.writes) : Inv s' where
  stored := by unfold written; rw [hwrites, hspecs]; exact h.stored
  order := by unfold InOrder written; rw [hwrites]; exact h.order
  list := by rw [hm.reservedpod, hspecs]; exact h.list
  queued := by rw [hm.reservedpod]; exact fun y hy => h.queued y (hm.mem_items hy)
  fresh := by
    intro y hy spec hspec
    unfold lastGen Above
    rw [hlast, hspecs]
    exact h.passes marshal hm hy hspec
  guarded := by
    intro x g spec hx hg hspec
    unfold Above
    rw [hspecs]
    rcases hm.guards hx hg with ⟨hx, hg⟩ | ⟨hx, spec', hspec', rfl⟩
    · exact h.guarded x g spec hx hg hspec
    · obtain rfl := mem_unique hspec hspec'
      exact h.fresh x hx spec hspec

theorem Inv.of_write (hx : s.ctx.queue.processing = some x) (hspec : x.spec = some spec)
    (hg : s.guard = some g) (hlt : g < spec.generation) (hnone : s'.guard = none)
    (hlast : s'.ctx.lastUpdatedGen = s.ctx.lastUpdatedGen.insert spec.nodeName spec.generation)
    (hspecs : s'.api.specs = s.api.specs.insert spec.nodeName spec)
    (hwrites : s'.api.writes = s.api.writes ++ [(spec.nodeName, spec.generation)]) : Inv s' := by
  have habove : Above s.api spec := by
    refine (h.guarded x g spec hx hg hspec).resolve_left ?_
    omega
  -- everything written for the node so far is older
  have hold : ∀ g ∈ written s.api spec.nodeName, g < spec.generation := by
    intro g hgw
    obtain ⟨st, hst, hle⟩ := h.stored _ g hgw
    have := habove st hst
    omega
  constructor
  · intro node g hgw
    rw [written_append hwrites] at hgw
    rw [hspecs, Dict.lookup_insert_ite]
    by_cases hn : spec.nodeName = node
    · rw [if_pos hn, List.mem_append, List.mem_singleton] at hgw
      rw [if_pos hn.symm]
      refine ⟨spec, rfl, ?_⟩
      rcases hgw with hgw | rfl
      · exact (hold g (hn ▸ hgw)).le
      · exact le_rfl
    · rw [if_neg hn, List.append_nil] at hgw
      rw [if_neg (Ne.symm hn)]
      exact h.stored node g hgw
  · intro node
    rw [written_append hwrites]
    by_cases hn : spec.nodeName = node
    · rw [if_pos hn, List.pairwise_append]
      refine ⟨h.order node, List.pairwise_singleton _ _, ?_⟩
      intro a ha b hb
      rw [List.mem_singleton] at hb
      subst hb
      exact hold a (hn ▸ ha)
    · rw [if_neg hn, List.append_nil]
      exact h.order node
  · intro node l st hl hst
    rw [hm.reservedpod] at hl
    rw [hspecs, Dict.lookup_insert_ite] at hst
    by_cases hn : node = spec.nodeName
    · rw [if_pos hn, some.injEq] at hst
      subst hst hn
      exact h.queued x (mem_items.mpr (.inl hx)) spec hspec l hl
    · rw [if_neg hn] at hst
      exact h.list node l st hl hst
  · rw [hm.reservedpod]
    exact fun y hy => h.queued y (hm.mem_items hy)
  · intro y hy spec' hspec'
    unfold lastGen Above
    rw [hlast, hspecs, Dict.lookup_insert_ite, Dict.lookup_insert_ite]
    by_cases hn : spec'.nodeName = spec.nodeName
    · -- an item that is not newer than the one just written will be skipped
      simp only [if_pos hn, getD_some, mem_def, some.injEq, forall_eq']
      omega
    · simp only [if_neg hn]
      exact h.passes marshal hm hy hspec'
  · intro x' g' spec' _ hg'
    rw [hnone] at hg'
    cases hg'

theorem worker_inv : Inv s' := by
  rcases hm.writes with ⟨hlast, hspecs, hwrites⟩ |
    ⟨x, spec, g, hx, hspec, hg, hlt, hnone, hlast, hspecs, hwrites⟩
  · exact h.of_no_write marshal hm hlast hspecs hwrites
  · exact h.of_write marshal hm hx hspec hg hlt hnone hlast hspecs hwrites

end

/-! ## The producers -/

theorem Inv.set_list (h : Inv s) {pl : PodList} (hc : Covers s node pl) :
    Inv { s with ctx := { s.ctx with reservedpod := s.ctx.reservedpod.insert node pl } } where
  __ := h
  list := by
    intro n l st hl hst
    simp only [Dict.lookup_insert_ite] at hl
    by_cases hn : n = node
    · rw [if_pos hn, some.injEq] at hl
      subst hl hn
      exact hc.1 st hst
    · rw [if_neg hn] at hl
      exact h.list n l st hl hst
  queued := by
    intro y hy spec hspec l hl
    simp only [Dict.lookup_insert_ite] at hl
    by_cases hn : spec.nodeName = node
    · rw [if_pos hn, some.injEq] at hl
      subst hl
      exact hc.2 y hy spec hspec hn
    · rw [if_neg hn] at hl
      exact h.queued y hy spec hspec l hl

theorem Inv.reset (h : Inv s) (node : String) (ho : NoneOvertaken s node) :
    Inv { s with ctx := { s.ctx with
      lastUpdatedGen := s.ctx.lastUpdatedGen.insert node (-1) } } where
  __ := h
  fresh := by
    intro y hy spec hspec
    unfold lastGen
    simp only [Dict.lookup_insert_ite]
    by_cases hn : spec.nodeName = node
    · rw [if_pos hn, getD_some]
      by_cases hneg : spec.generation ≤ -1
      · exact .inl hneg
      · exact .inr (ho y hy spec hspec hn (by omega))
    · rw [if_neg hn]
      exact h.fresh y hy spec hspec

theorem Inv.enqueue (h : Inv s) (hx : x.spec = some spec) (ha : Above s.api spec)
    (hcur : ∀ l, s.ctx.reservedpod.lookup spec.nodeName = some l → spec.generation ≤ l.generation) :
    Inv { s with ctx := s.ctx.setQueue (s.ctx.queue.add x) } where
  __ := h
  queued := by
    intro y hy spec' hspec'
    rcases mem_items_add.mp hy with rfl | hy
    · obtain rfl := mem_unique hx hspec'
      exact hcur
    · exact h.queued y hy spec' hspec'
  fresh := by
    intro y hy spec' hspec'
    rcases (mem_waiting_add rfl).mp hy with rfl | hy
    · obtain rfl := mem_unique hx hspec'
      exact .inr ha
    · exact h.fresh y hy spec' hspec'

section

variable (h : Inv s) (hl : s.ctx.reservedpod.lookup node = some l) (pods : Dict String PodRequest)
include h hl pods

/-- The next generation of a node is above everything stored and queued for it. -/
theorem Inv.covers_next : Covers s node ⟨l.generation + 1, pods⟩ := by
  refine ⟨fun st hst => ?_, fun y hy spec hspec hn => ?_⟩
  · have := h.list node l st hl hst
    show st.generation ≤ l.generation + 1
    omega
  · have := h.queued y hy spec hspec l (hn ▸ hl)
    show spec.generation ≤ l.generation + 1
    omega

theorem Inv.above_next : Above s.api (specOf node ⟨l.generation + 1, pods⟩) := by
  intro st hst
  have := h.list node l st hl hst
  show st.generation < l.generation + 1
  omega

end

theorem addPod_inv (h : Inv s) (ho : NoneOvertaken s node) (req : PodRequest) (pod : Pod) :
    Inv { s with ctx := (s.ctx.addPod req pod node).1 } := by
  cases hl : s.ctx.reservedpod.lookup node with
  | none => rw [addPod_of_none hl]; exact h
  | some l =>
    rw [addPod_of_lookup hl]
    have hset := h.set_list (h.covers_next hl (l.podList.insert pod.uid req))
    refine (hset.reset node ho).enqueue rfl (h.above_next hl _) ?_
    intro l' hl'
    simp only [specOf, Finmap.lookup_insert, some.injEq] at hl'
    rw [← hl']
    exact le_rfl

theorem removePod_inv (h : Inv s) (pod : Pod) :
    Inv { s with ctx := (s.ctx.removePod pod pod.nodeName).1 } := by
  cases hl : s.ctx.reservedpod.lookup pod.nodeName with
  | none => rw [removePod_of_none hl]; exact h
  | some l =>
    rw [removePod_of_lookup rfl hl]
    have hset := h.set_list (h.covers_next hl (l.podList.erase pod.uid))
    refine hset.enqueue rfl (h.above_next hl _) ?_
    intro l' hl'
    simp only [specOf, Finmap.lookup_insert, some.injEq] at hl'
    rw [← hl']
    exact le_rfl

theorem step_inv {e : Event} (hs : step marshal s e = some s') (hc : ResetsSafely s e) (h : Inv s) :
    Inv s' := by
  cases e with
  | addPod req pod node =>
    cases hs
    exact addPod_inv h hc req pod
  | removePod pod node =>
    cases hs
    cases hc
    exact removePod_inv h pod
  | setReservedPods node pl =>
    cases hs
    exact (h.set_list hc.2).reset node hc.1
  | worker e => exact worker_inv marshal h (workerStep_moves marshal hs)

/-- In every run whose resets meet no overtaken item, the generations of every node are written
in strictly increasing order. -/
theorem writes_inOrder {s t : WorkerState} {es : List Event} (hstart : Start s)
    (hrun : run (step marshal) s es = some t)
    (hsafe : Along (step marshal) ResetsSafely s es) : InOrder t.api :=
  (run_invariant (fun _ _ _ => step_inv marshal) (start_inv hstart) hsafe hrun).order

/-! Three pods reserved on one node, the first of which needs a retry. -/

def workerPod (uid : String) : Pod :=
  { uid := uid, name := uid, ns := "default", nodeName := "n", annotations := ∅, volumes := [] }

def workerRequest (uid : String) : PodRequest :=
  { podName := uid, podNamespace := "default", request := [⟨.diskIo, .beIndex, none⟩] }

def workerStart : WorkerState :=
  { ctx := {
      reservedpod := Finmap.singleton "n" ⟨0, ∅⟩, nsWhiteList := [], claimDevMap := ∅,
      queue := .empty, lastUpdatedGen := ∅ }
    api := {
      pods := ((Finmap.singleton (podKey (workerPod "a")) (workerPod "a")).insert
        (podKey (workerPod "b")) (workerPod "b")).insert (podKey (workerPod "c")) (workerPod "c")
      specs := Finmap.singleton "n" ⟨"n", 0, ∅⟩
      writes := [] }
    guard := none }

def noFailure : ApiFailures := ⟨none, none, none, none⟩

def addEvent (uid : String) : Event := .addPod (workerRequest uid) (workerPod uid) "n"

def handle (f : ApiFailures) : List Event := [.worker .take, .worker .read, .worker (.process f)]

theorem workerStart_start : Start workerStart where
  idle := by decide
  fresh := rfl
  newer := by
    intro node l st hl hst
    obtain ⟨-, rfl⟩ := Dict.eq_of_lookup_singleton hl
    obtain ⟨-, rfl⟩ := Dict.eq_of_lookup_singleton hst
    exact le_rfl

/-- The retry of the first item waits in the queue when the third pod resets the last written
generation: generation 1 is written after generation 2. -/
theorem not_writesInOrder : ¬ WritesInOrder := by
  intro h
  let es : List Event :=
    [addEvent "a"] ++ handle { noFailure with patchStatus := some "timeout" } ++
      [addEvent "b"] ++ handle noFailure ++ [Event.worker (.expire 0), addEvent "c"] ++
      handle noFailure
  obtain ⟨t, ht, hw⟩ : ∃ t ∈ run (step fun _ => "") workerStart es, written t.api "n" = [2, 1] := by
    decide +kernel
  have := h _ workerStart t es workerStart_start ht "n"
  rw [hw] at this
  revert this
  decide

/-- The retry is handled before the next pod is reserved. -/
def retryFirst : List Event :=
  [addEvent "a"] ++ handle { noFailure with patchStatus := some "timeout" } ++
    [Event.worker (.expire 0)] ++ handle noFailure ++ [addEvent "b"] ++ handle noFailure

theorem writes_inOrder_retryFirst :
    ∃ t, run (step fun _ => "") workerStart retryFirst = some t ∧ written t.api "n" = [1, 2] ∧
      InOrder t.api := by
  exact exists_run (by decide +kernel) fun t ht _ =>
    writes_inOrder _ workerStart_start ht (by decide +kernel)

end IOIsolation.Sched.WriteOrder
