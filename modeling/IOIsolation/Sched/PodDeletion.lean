import IOIsolation.Sched.StatusRace
import IOIsolation.Sched.Worker

/-!
# Sched.PodDeletion

When the deletion of a pod releases its reservation. `Reserve`, the worker that writes the
annotation, changes of the namespace white list and the delete notifications of the pod informer
interleave; a notification carries the last state the informer saw of the pod, or a tombstone.

* `releases_iff`       — in every run, a delete notification of a reserved pod releases it exactly
  when it is no tombstone, the pod in it has the annotation and a node, and its namespace is not
  in the white list at that time.
* `not_alwaysReleases` — so a reservation can outlive its pod.
-/

namespace IOIsolation.Sched.PodDeletion

open Lib Finmap ResourceIOContext Option

/-- What is fixed in a run: the registered handlers and the encoding of the annotation. -/
structure Setting where
  handles : List HandleKind
  nodup : handles.Nodup
  marshal : AllocatedIo → String

structure State where
  sched : SchedState
  api : Cluster
  guard : Option Int
  deriving DecidableEq

inductive Event where
  | reserve (node : String) (pod : Pod) (cyc : CycleData)
  | worker (e : WorkerEvent)
  | updateAdminConfigData (nsWhiteList : Option (List String))
  | deletePod (obj : DeleteNotification) (order : List HandleKind) (classOrder : List String)

def State.setCtx (s : State) (ctx : ResourceIOContext) : State :=
  { s with sched := { s.sched with env := { s.sched.env with ctx := ctx } } }

variable (S : Setting)

def step (s : State) : Event → Option State
  | .reserve node pod cyc =>
    if S.handles.all (cycleOk cyc) then
      match reserve .ignored S.handles pod node cyc s.sched with
      | .done (sched, _) => some { s with sched := sched }
      | _ => none
    else none
  | .worker e =>
    match workerStep S.marshal ⟨s.sched.env.ctx, s.api, s.guard⟩ e with
    | some w => some { s.setCtx w.ctx with api := w.api, guard := w.guard }
    | none => none
  | .updateAdminConfigData cfg => some (s.setCtx (updateAdminConfigData cfg s.sched.env.ctx))
  | .deletePod obj order classOrder =>
    if order.Perm S.handles then
      match onDeletePod .ignored order obj classOrder s.sched with
      | .done sched => some { s with sched := sched }
      | _ => none
    else none

def object : DeleteNotification → Pod
  | .pod p => p
  | .deletedFinalStateUnknown _ p => p

/-- The pod is out of the list of its node, and every device has what its entry took. -/
structure Released (p : Pod) (e : PodRequest) (s s' : State) : Prop where
  list : ∃ l, s'.sched.env.ctx.reservedpod.lookup p.nodeName = some l ∧ p.uid ∉ l.podList
  pools : ∀ k ∈ S.handles, ∀ dev, cached s'.sched.caches k p.nodeName dev =
    (cached s.sched.caches k p.nodeName dev).map (· + taken (podDemand k.ioType dev e.request))

/-- A delete notification of a reserved pod releases it. -/
def Releases (s : State) : Event → Prop
  | .deletePod obj order classOrder => ∀ l e s',
      s.sched.env.ctx.reservedpod.lookup (object obj).nodeName = some l →
      l.podList.lookup (object obj).uid = some e →
      step S s (.deletePod obj order classOrder) = some s' → Released S (object obj) e s s'
  | _ => True

/-- Every reserved pod can be released: its devices are registered. -/
structure Start (s : State) : Prop where
  named : Named s.sched.caches
  releasable : ∀ n l uid e, s.sched.env.ctx.reservedpod.lookup n = some l →
    l.podList.lookup uid = some e → Releasable s.sched.caches n e.request

/-- Every delete notification of a reserved pod releases it, in every run. -/
def AlwaysReleases : Prop :=
  ∀ (S : Setting) (s : State) (es : List Event), Start s → Along (step S) (Releases S) s es

/-! ## The condition -/

/-- The notification carries the pod, which has the annotation and a node, and whose namespace is
not in the white list. -/
def Handled (s : State) : DeleteNotification → Prop
  | .pod p => allocatedIOAnno ∈ p.annotations ∧ p.nodeName ≠ "" ∧
      s.sched.env.ctx.inNamespaceWhiteList p.ns = false
  | .deletedFinalStateUnknown _ _ => False

def ReleasesIffHandled (s : State) : Event → Prop
  | .deletePod obj order classOrder => ∀ l e s',
      s.sched.env.ctx.reservedpod.lookup (object obj).nodeName = some l →
      l.podList.lookup (object obj).uid = some e →
      step S s (.deletePod obj order classOrder) = some s' →
      (Released S (object obj) e s s' ↔ Handled s obj)
  | _ => True

/-! ## Every reserved pod can be released -/

variable {S} {s s' : State}

theorem Start.of_lists (h : Start s) (hshape : SameShape s.sched.caches s'.sched.caches)
    (hlists : ∀ n l' uid e, s'.sched.env.ctx.reservedpod.lookup n = some l' →
      l'.podList.lookup uid = some e → Releasable s.sched.caches n e.request) : Start s' :=
  ⟨h.named.of_sameShape hshape,
    fun n l' uid e hl he => (hlists n l' uid e hl he).of_sameShape hshape⟩

theorem Start.of_same_lists (h : Start s) (hshape : SameShape s.sched.caches s'.sched.caches)
    (hlists : s'.sched.env.ctx.reservedpod = s.sched.env.ctx.reservedpod) : Start s' :=
  h.of_lists hshape fun n l' uid e hl he => h.releasable n l' uid e (hlists ▸ hl) he

variable {sched : SchedState}

theorem reserve_start {node : String} {pod : Pod} {cyc : CycleData} {r : Except String Unit}
    (h : Start s) (hcyc : S.handles.all (cycleOk cyc) = true)
    (hs : reserve .ignored S.handles pod node cyc s.sched = .done (sched, r)) :
    Start { s with sched := sched } := by
  have hreq : ∀ k ∈ S.handles, ∀ request, cyc.stateData k = .ok request →
      RequestOk k request := by
    intro k hk request hdata
    exact requestOk_of_cycleOk (List.all_eq_true.mp hcyc k hk) hdata
  unfold reserve at hs
  split_ifs at hs with hwl
  · cases hs
    exact h
  simp only [Outcome.bind_eq_done] at hs
  obtain ⟨⟨s1, r1⟩, hloop, hs⟩ := hs
  obtain ⟨hshape, hctx, hrel⟩ := reserveLoop_frame hreq (releasable_nil _ node) hloop
  have hlists := hctx.reservedpod
  cases r1 with
  | error err =>
    cases hs
    exact h.of_same_lists hshape hlists
  | ok reqs =>
    simp only at hs
    split_ifs at hs with hnil
    · cases hs
      exact h.of_same_lists hshape hlists
    cases hs
    cases hl : s1.env.ctx.reservedpod.lookup node with
    | none =>
      rw [addPod_of_none hl]
      exact h.of_same_lists hshape hlists
    | some l =>
      rw [addPod_of_lookup hl]
      refine h.of_lists hshape fun n l' uid e hl' he => ?_
      simp only [Dict.lookup_insert_ite] at hl'
      split_ifs at hl' with hn
      · cases hl'
        rw [Dict.lookup_insert_ite] at he
        split_ifs at he with hu
        · cases he
          rw [hn]
          exact hrel reqs rfl
        · rw [hlists] at hl
          rw [hn]
          exact h.releasable node l uid e hl he
      · rw [hlists] at hl'
        exact h.releasable n l' uid e hl' he

variable {classOrder : List String} {obj : DeleteNotification} {order : List HandleKind} {e : Event}

/-- What handling a notification does: nothing, or the loop over the handlers and the list. -/
theorem onDeletePod_cases (hs : onDeletePod .ignored order obj classOrder s.sched = .done sched) :
    ¬ Handled s obj ∧ sched = s.sched ∨
      Handled s obj ∧ ∃ p s1, obj = .pod p ∧
        removeLoop .ignored p p.nodeName none classOrder order s.sched = .done s1 ∧
        sched = { s1 with env := { s1.env with
          ctx := (s1.env.ctx.removePod p p.nodeName).1 } } := by
  unfold onDeletePod at hs
  cases obj with
  | deletedFinalStateUnknown key p =>
    cases hs
    exact .inl ⟨id, rfl⟩
  | pod p =>
    by_cases hf : podFilter s.sched.env.ctx (.pod p) = true
    · rw [if_pos hf] at hs
      simp only [podFilter, Bool.and_eq_true, Bool.not_eq_eq_eq_not, Bool.not_true, bne_iff_ne]
        at hf
      unfold deletePod at hs
      by_cases ha : allocatedIOAnno ∉ p.annotations
      · simp only [if_pos ha] at hs
        cases hs
        exact .inl ⟨fun h => ha h.1, rfl⟩
      simp only [if_neg ha, Outcome.bind_eq_done] at hs
      obtain ⟨s1, hloop, hs⟩ := hs
      cases hs
      exact .inr ⟨⟨not_not.mp ha, hf.2, hf.1⟩, p, s1, rfl, hloop, rfl⟩
    · rw [if_neg hf] at hs
      cases hs
      refine .inl ⟨fun h => hf ?_, rfl⟩
      simp [podFilter, h.2.1, h.2.2]

theorem deletePod_start (h : Start s)
    (hs : onDeletePod .ignored order obj classOrder s.sched = .done sched) :
    Start { s with sched := sched } := by
  rcases onDeletePod_cases hs with ⟨-, rfl⟩ | ⟨-, p, s1, -, hloop, rfl⟩
  · exact h
  obtain ⟨hshape, hctx⟩ := removeLoop_frame hloop
  have hlists := hctx.reservedpod
  cases hl : s1.env.ctx.reservedpod.lookup p.nodeName with
  | none =>
    rw [removePod_of_none hl]
    exact h.of_same_lists hshape hlists
  | some l =>
    rw [removePod_of_lookup rfl hl]
    refine h.of_lists hshape fun n l' uid e hl' he => ?_
    simp only [Dict.lookup_insert_ite] at hl'
    split_ifs at hl' with hn
    · cases hl'
      rw [Dict.lookup_erase_ite] at he
      split_ifs at he
      rw [hlists] at hl
      rw [hn]
      exact h.releasable _ l uid e hl he
    · rw [hlists] at hl'
      exact h.releasable n l' uid e hl' he

theorem step_start (hs : step S s e = some s') (h : Start s) : Start s' := by
  cases e with
  | reserve node pod cyc =>
    simp only [step] at hs
    split_ifs at hs with hcyc
    split at hs
    · rename_i sched r hres
      cases hs
      exact reserve_start h hcyc hres
    · cases hs
  | worker e =>
    simp only [step] at hs
    split at hs
    · rename_i w hw
      cases hs
      exact h.of_same_lists (.refl _) (workerStep_moves S.marshal hw).reservedpod
    · cases hs
  | updateAdminConfigData cfg =>
    cases hs
    refine h.of_same_lists (.refl _) ?_
    cases cfg <;> rfl
  | deletePod obj order classOrder =>
    simp only [step] at hs
    split_ifs at hs
    split at hs
    · rename_i sched hdel
      cases hs
      exact deletePod_start h hdel
    · cases hs

/-! ## What a notification releases -/

theorem step_releasesIffHandled (h : Start s) : ReleasesIffHandled S s e := by
  cases e with
  | reserve | worker | updateAdminConfigData => trivial
  | deletePod obj order classOrder =>
    intro l e s' hl he hs
    simp only [step] at hs
    split_ifs at hs with hperm
    split at hs
    · rename_i sched hdel
      cases hs
      rcases onDeletePod_cases hdel with ⟨hnot, rfl⟩ | ⟨hyes, p, s1, rfl, hloop, rfl⟩
      · -- the pod is still in the list
        refine ⟨fun hrel => ?_, fun hyes => absurd hyes hnot⟩
        obtain ⟨l', hl', huid⟩ := hrel.list
        obtain rfl := mem_unique hl hl'
        exact absurd (mem_of_lookup_eq_some he) huid
      refine ⟨fun _ => hyes, fun _ => ?_⟩
      have hnodup : order.Nodup := hperm.nodup_iff.mpr S.nodup
      obtain ⟨hcached, -, hctx⟩ := removeLoop_cached hnodup h.named hl he
        (h.releasable _ l _ e hl he) hloop
      have hl1 : s1.env.ctx.reservedpod.lookup p.nodeName = some l := by
        rw [hctx.reservedpod]
        exact hl
      rw [removePod_of_lookup rfl hl1]
      constructor
      · exact ⟨_, lookup_insert _, notMem_erase_self⟩
      · intro k hk dev
        show cached s1.caches k p.nodeName dev = _
        rw [hcached, if_pos ⟨rfl, hperm.mem_iff.mpr hk⟩]
        rfl
    · cases hs

/-- In every run, every delete notification of a reserved pod releases its reservation exactly
when the handler gets to it. -/
theorem releases_iff (S : Setting) {s : State} (es : List Event) (hstart : Start s) :
    Along (step S) (ReleasesIffHandled S) s es :=
  along_of_invariant (C := fun _ _ => True) (I := Start) (fun _ _ _ hs _ h => step_start hs h)
    (fun _ _ _ h => step_releasesIffHandled h) hstart (along_true _ _ _)

/-- Every reserved pod can be released at the end of every run. -/
theorem releasable_run (S : Setting) {s t : State} {es : List Event} (hstart : Start s)
    (hrun : run (step S) s es = some t) : Start t :=
  run_invariant (fun _ _ _ hs _ h => step_start hs h) hstart (along_true _ _ _) hrun

/-! One disk, and one pod that is reserved and then deleted. -/

open BlockIo (sdaEnv sdaPod)
open StatusRace (sdaCaches cycle)

def setting : Setting := ⟨[.blockIo], StatusRace.setting.nodup, fun _ => "allocated"⟩

def start : State := { sched := ⟨sdaCaches, sdaEnv⟩, api := ⟨∅, ∅, []⟩, guard := none }

theorem start_start : Start start :=
  ⟨StatusRace.start_start.named, StatusRace.start_start.releasable⟩

def reserveEvent : Event := .reserve "n" (sdaPod "a") cycle

def deleteEvent (p : Pod) : Event := .deletePod (.pod p) [.blockIo] []

def sdaEntry : PodRequest :=
  { podName := "a", podNamespace := "default"
    request := (BlockIo.sdaRequest .gaIndex).resourceRequest.entries.map fun e => e.2.ioRequest }

def inList (s : State) : Option PodRequest :=
  (s.sched.env.ctx.reservedpod.lookup "n").bind fun l => l.podList.lookup "a"

theorem releasable_run_sda :
    ∃ t, run (step setting) start [reserveEvent] = some t ∧ inList t = some sdaEntry ∧ Start t :=
  exists_run (by decide +kernel) fun _ ht _ => releasable_run setting start_start ht

/-- The informer has not seen the annotation yet when the pod is deleted. -/
theorem not_alwaysReleases : ¬ AlwaysReleases := by
  intro h
  have halong := h setting start [reserveEvent, deleteEvent (sdaPod "a")] start_start
  obtain ⟨s1, h1, hin1, s2, h2, hin2⟩ : ∃ s ∈ step setting start reserveEvent,
      inList s = some sdaEntry ∧ ∃ s' ∈ step setting s (deleteEvent (sdaPod "a")),
        inList s' = some sdaEntry := by
    decide +kernel
  obtain ⟨l1, hl1, he1⟩ := bind_eq_some_iff.mp hin1
  obtain ⟨l2, hl2, he2⟩ := bind_eq_some_iff.mp hin2
  have hrel := ((along_cons h1).mp halong).2.1 l1 sdaEntry s2 hl1 he1 h2
  obtain ⟨l, hl, huid⟩ := hrel.list
  obtain rfl : l2 = l := some.inj (hl2.symm.trans hl)
  exact huid (mem_of_lookup_eq_some he2)

def annotatedPod : Pod :=
  { sdaPod "a" with annotations := Finmap.singleton allocatedIOAnno "allocated" }

theorem releases_iff_annotated :
    ∃ s1 s2, step setting start reserveEvent = some s1 ∧ inList s1 = some sdaEntry ∧
      step setting s1 (deleteEvent annotatedPod) = some s2 ∧
      Released setting annotatedPod sdaEntry s1 s2 := by
  have halong := releases_iff setting [reserveEvent, deleteEvent annotatedPod] start_start
  obtain ⟨s1, h1, hin1, hwl, hsome⟩ : ∃ s ∈ step setting start reserveEvent,
      inList s = some sdaEntry ∧ s.sched.env.ctx.inNamespaceWhiteList "default" = false ∧
        (step setting s (deleteEvent annotatedPod)).isSome := by
    decide +kernel
  obtain ⟨s2, h2⟩ := isSome_iff_exists.mp hsome
  obtain ⟨l1, hl1, he1⟩ := bind_eq_some_iff.mp hin1
  have hiff := ((along_cons h1).mp halong).2.1 l1 sdaEntry s2 hl1 he1 h2
  exact ⟨s1, s2, h1, hin1, h2, hiff.mpr ⟨by decide +kernel, by decide, hwl⟩⟩

end IOIsolation.Sched.PodDeletion
