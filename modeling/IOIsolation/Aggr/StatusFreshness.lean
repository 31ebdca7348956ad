import IOIsolation.Aggr.NodeStatus
import IOIsolation.Sched.StatusRace

/-!
# Aggr.StatusFreshness

The way of a reported bandwidth from the agent to the scheduler. A report of one I/O type is merged
into the aggregator's cached status, the cached status is written to the custom resource, and the
scheduler takes over the bandwidth of all devices when the generation of the status is that of its
pod list. The one generation of a status is that of the report merged last; it also changes when an
aggregator that starts reads the resource.

* `fresh_of_labelKept` — if no step puts a bandwidth under another generation, and a status lists
  all devices, then every bandwidth the scheduler takes over was computed at its generation.
* `not_alwaysFresh`    — without that it was not: a report of the disks puts the network bandwidth
  under its generation.
-/

namespace IOIsolation.Aggr.StatusFreshness

open Lib Finmap List Option
open Sched (HandleKind SchedState Bandwidth StatusApplies CycleData DeleteNotification)

/-- What is fixed in a run; `direct` merges a report in the call, without the channel. -/
structure Setting where
  node : String
  handles : List HandleKind
  hash : NodeIOStatusStatus → Nat
  direct : Bool

structure Aggregator where
  latestGeneration : Int
  cache : Option NodeIOStatusStatus
  nodeStatusCh : List UpdateNodeIOStatusRequest
  reservedPodCh : List NodeIOStatusSpec
  /-- The state of the resource its informer handed out last, and the later ones. -/
  seen : NodeIOStatus
  watch : List NodeIOStatus
  /-- The cache entry is the status of that object itself. -/
  shared : Bool
  deriving DecidableEq

structure State where
  cr : NodeIOStatus
  /-- Every report the agent has computed. -/
  reports : List UpdateNodeIOStatusRequest
  aggr : Option Aggregator
  sched : SchedState
  /-- The state of the resource the scheduler's informer handed out last, and the later ones. -/
  seen : NodeIOStatus
  watch : List NodeIOStatus
  deriving DecidableEq

inductive Event where
  | compute (req : UpdateNodeIOStatusRequest)
  /-- The call with the `i`-th report reaches the aggregator. -/
  | call (i : Nat)
  | merge
  | write
  | stamp
  | follow
  | stop
  /-- A new aggregator reads the resource; `known` if it has read the static information of the node
  before. -/
  | restart (known : Bool)
  | writeSpec (spec : NodeIOStatusSpec)
  | addTypes (config : Dict WorkloadIOType ResourceConfigSpec) (typ : Option WorkloadIOType)
  | changeDevices (t : WorkloadIOType) (adds dels : Dict String Device)
  | reserve (pod : Pod) (cyc : CycleData)
  | deletePod (obj : DeleteNotification) (order : List HandleKind) (classOrder : List String)
  | notify (classOrder : List String)
  | skip

/-- The resource changes; both informers will hand out the new state. -/
def State.setCR (s : State) (cr : NodeIOStatus) : State :=
  { s with
    cr := cr
    aggr := s.aggr.map fun a => { a with watch := a.watch ++ [cr] }
    watch := s.watch ++ [cr] }

variable (S : Setting)

/-- The report an event merges, the aggregator that merges it, and the entry it is merged into. -/
def merged (s : State) (e : Event) :
    Option (UpdateNodeIOStatusRequest × Aggregator × NodeIOStatusStatus) :=
  match e, s.aggr with
  | .call i, some a =>
    match s.reports[i]?, a.cache with
    | some req, some c =>
      if S.direct ∧ a.latestGeneration ≤ req.observedGeneration then some (req, a, c) else none
    | _, _ => none
  | .merge, some a =>
    match a.nodeStatusCh, a.cache with
    | req :: rest, some c => some (req, { a with nodeStatusCh := rest }, c)
    | _, _ => none
  | _, _ => none

def step (s : State) (e : Event) : Option State :=
  match e with
  | .compute req =>
    if req.nodeName = S.node then some { s with reports := s.reports ++ [req] } else none
  | .merge =>
    (merged S s .merge).map fun (req, a, c) =>
      { s with aggr := some { a with cache := some (updateNodeIOStatusCache req c) } }
  | .call i =>
    match merged S s (.call i) with
    | some (req, a, c) =>
      some { s with aggr := some { a with cache := some (updateNodeIOStatusCache req c) } }
    | none =>
      match s.reports[i]?, s.aggr with
      | some req, some a =>
        -- an old report and one for an unknown node are refused
        if a.cache = none ∨ req.observedGeneration < a.latestGeneration then some s
        else some { s with aggr := some { a with nodeStatusCh := a.nodeStatusCh ++ [req] } }
      | _, _ => none
  | .write =>
    match s.aggr.bind (·.cache) with
    | some c => some (s.setCR { s.cr with status := c })
    | none => none
  | .stamp =>
    match s.aggr with
    | some a =>
      match a.reservedPodCh with
      | spec :: rest =>
        some { s with
          aggr := some { a with latestGeneration := spec.generation, reservedPodCh := rest } }
      | [] => none
    | none => none
  | .follow =>
    match s.aggr with
    | some a =>
      match a.watch with
      | new :: rest =>
        match updateNodeIOStatusCR a.shared a.seen new a.cache with
        | .done cache =>
          some { s with
            aggr := some { a with
              cache := cache
              reservedPodCh :=
                if a.seen.spec = new.spec then a.reservedPodCh else a.reservedPodCh ++ [new.spec]
              seen := new
              watch := rest
              shared := Registers a.seen new a.cache } }
        | _ => none
      | [] => none
    | none => none
  | .stop => some { s with aggr := none }
  | .restart known =>
    match s.aggr with
    | none =>
      some { s with
        aggr := some
          { latestGeneration := if known then 0 else s.cr.spec.generation
            cache := addNodeIOStatusCR s.cr none
            nodeStatusCh := []
            reservedPodCh := [s.cr.spec]
            seen := s.cr
            watch := []
            shared := s.cr.status.allocatableBandwidth ≠ ∅ } }
    | some _ => none
  | .writeSpec spec =>
    if spec.nodeName = S.node then some (s.setCR { s.cr with spec := spec }) else none
  | .addTypes config typ =>
    some (s.setCR { s.cr with
      status := Sched.updateNodeIOStatusInType (Sched.composeAllocableBW config typ) s.cr.status })
  | .changeDevices t adds dels =>
    match Sched.updateNodeIOStatusInDevice S.node t adds dels s.cr.status with
    | .ok status => some (s.setCR { s.cr with status := status })
    | .error _ => some s
  | .reserve pod cyc =>
    match Sched.reserve .ignored S.handles pod S.node cyc s.sched with
    | .done (sched, _) => some { s with sched := sched }
    | _ => none
  | .deletePod obj order classOrder =>
    match Sched.onDeletePod .ignored order obj classOrder s.sched with
    | .done sched => some { s with sched := sched }
    | _ => none
  | .notify classOrder =>
    match s.watch with
    | new :: rest =>
      some { s with
        sched := Sched.updateNodeIOStatus S.hash S.handles s.seen new classOrder s.sched
        seen := new
        watch := rest }
    | [] => none
  | .skip =>
    match s.watch with
    | _ :: rest => some { s with watch := rest }
    | [] => none

/-! ## Freshness -/

/-- The agent computed the guaranteed pool of the device at the generation. -/
def Computed (reports : List UpdateNodeIOStatusRequest) (generation : Int) (t : WorkloadIOType)
    (dev : String) (v : IOStatus) : Prop :=
  ∃ req ∈ reports, req.observedGeneration = generation ∧
    ∃ bw ∈ req.ioBw, bw.pool t dev .ga = some v

def bandwidthOf (v : IOStatus) : Bandwidth := (v.inBps, v.outBps, v.total)

/-- The bandwidth the scheduler takes over for a device when its informer hands out `new`. -/
def installs (s : State) (new : NodeIOStatus) (k : HandleKind) (dev : String) : Option Bandwidth :=
  if StatusApplies S.hash s.seen new s.sched.env.ctx ∧ k ∈ S.handles ∧
      dev ∈ Sched.devices s.sched.caches k new.spec.nodeName then
    Sched.reported k new.status dev
  else none

/-- What the scheduler takes over was computed by the agent at the generation of its pod list. -/
def Fresh (s : State) : Event → Prop
  | .notify _ => ∀ new ∈ s.watch.head?, ∀ k dev b, installs S s new k dev = some b →
      ∃ rp v, s.sched.env.ctx.reservedpod.lookup new.spec.nodeName = some rp ∧
        Computed s.reports rp.generation k.workloadIOType dev v ∧ bandwidthOf v = b
  | _ => True

/-- A pool with a value; a negative one is a placeholder. -/
def ForReal (m : AllocatableBandwidth) (P : WorkloadIOType → String → Prop) : Prop :=
  ∀ t ∈ m.keys, ∀ devices ∈ m.lookup t, ∀ dev ∈ devices.keys, ∀ v ∈ pool m t dev .ga,
    0 ≤ v.inBps → P t dev

instance (m : AllocatableBandwidth) (P : WorkloadIOType → String → Prop)
    [∀ t dev, Decidable (P t dev)] : Decidable (ForReal m P) :=
  inferInstanceAs (Decidable (∀ t ∈ m.keys, _))

/-- No report has been computed and the resource has only placeholders. -/
structure Start (s : State) : Prop where
  reports : s.reports = []
  aggr : s.aggr = none
  cr : ForReal s.cr.status.allocatableBandwidth fun _ _ => False
  watch : s.watch = []

/-- In every run, everything the scheduler takes over is fresh. -/
def AlwaysFresh : Prop :=
  ∀ (S : Setting) (s : State) (es : List Event), Start s → Along (step S) (Fresh S) s es

/-! ## The condition -/

/-- A report is merged into an entry of its own generation, or replaces all values of the entry. -/
def MergeKept (s : State) (e : Event) : Prop :=
  ∀ x ∈ merged S s e, x.1.observedGeneration = x.2.2.observedGeneration ∨
    ForReal x.2.2.allocatableBandwidth fun t dev => x.1.Reports t dev .ga

instance (s : State) (e : Event) : Decidable (MergeKept S s e) :=
  inferInstanceAs (Decidable (∀ x ∈ merged S s e, _))

/-- A resource that becomes the entry has the generation of its spec, or no value. -/
def ReadKept (obj : NodeIOStatus) : Prop :=
  obj.status.observedGeneration = obj.spec.generation ∨
    ForReal obj.status.allocatableBandwidth fun _ _ => False

instance (obj : NodeIOStatus) : Decidable (ReadKept obj) := inferInstanceAs (Decidable (_ ∨ _))

/-- Devices that appear in the resource come with the generation of the entry, or no value. -/
def FollowKept (old new : NodeIOStatus) : Option NodeIOStatusStatus → Prop
  | none => ReadKept new
  | some c => new.status.observedGeneration = c.observedGeneration ∨
      ForReal new.status.allocatableBandwidth fun t dev =>
        ¬ Appears old.status.allocatableBandwidth t dev

instance (old new : NodeIOStatus) : ∀ cache, Decidable (FollowKept old new cache)
  | none => inferInstanceAs (Decidable (ReadKept new))
  | some _ => inferInstanceAs (Decidable (_ ∨ _))

/-- The status has a pool for every device the scheduler keeps of an I/O type in it. -/
def ListsAll (s : State) (new : NodeIOStatus) : Prop :=
  ∀ k ∈ S.handles, ∀ dev ∈ Sched.devices s.sched.caches k new.spec.nodeName,
    ∀ bw ∈ new.status.allocatableBandwidth.lookup k.workloadIOType, bw ≠ ∅ →
      (pool new.status.allocatableBandwidth k.workloadIOType dev .ga).isSome = true

instance (s : State) (new : NodeIOStatus) : Decidable (ListsAll S s new) :=
  inferInstanceAs (Decidable (∀ k ∈ S.handles, _))

/-- No value gets under another generation than its own, and a status that the scheduler takes over
lists all devices. -/
def LabelKept (s : State) : Event → Prop
  | .call i => MergeKept S s (.call i)
  | .merge => MergeKept S s .merge
  | .restart _ => ReadKept s.cr
  | .follow => ∀ a ∈ s.aggr, ∀ new ∈ a.watch.head?, FollowKept a.seen new a.cache
  | .notify _ => ∀ new ∈ s.watch.head?, ListsAll S s new
  | _ => True

instance (s : State) : ∀ e, Decidable (LabelKept S s e)
  | .call i => inferInstanceAs (Decidable (MergeKept S s (.call i)))
  | .merge => inferInstanceAs (Decidable (MergeKept S s .merge))
  | .restart _ => inferInstanceAs (Decidable (ReadKept s.cr))
  | .follow => inferInstanceAs (Decidable (∀ a ∈ s.aggr, _))
  | .notify _ => inferInstanceAs (Decidable (∀ new ∈ s.watch.head?, _))
  | .compute _ | .write | .stamp | .stop | .writeSpec _ | .addTypes _ _ | .changeDevices _ _ _
  | .reserve _ _ | .deletePod _ _ _ | .skip => inferInstanceAs (Decidable True)

/-! ## Statuses that keep their label -/

/-- Every value of the status was computed at its generation. -/
def Backed (reports : List UpdateNodeIOStatusRequest) (st : NodeIOStatusStatus) : Prop :=
  ∀ t dev v, pool st.allocatableBandwidth t dev .ga = some v → 0 ≤ v.inBps →
    Computed reports st.observedGeneration t dev v

variable {S} {s s' : State} {dev : String} {reports : List UpdateNodeIOStatusRequest}
  {st c : NodeIOStatusStatus} {req : UpdateNodeIOStatusRequest} {e : Event} {t : WorkloadIOType}
  {v : IOStatus} {st' : NodeIOStatusStatus} {adds : Dict String Device} {a : Aggregator}
  {b : Bandwidth} {k : HandleKind}

theorem ForReal.apply {m : AllocatableBandwidth} {P : WorkloadIOType → String → Prop}
    (h : ForReal m P) (hv : pool m t dev .ga = some v) (hreal : 0 ≤ v.inBps) : P t dev := by
  obtain ⟨pools, hpools, -⟩ := bind_eq_some_iff.mp hv
  obtain ⟨devices, hdevices, hdev⟩ := bind_eq_some_iff.mp hpools
  exact h t (mem_keys.mpr (mem_of_lookup_eq_some hdevices)) devices hdevices dev
    (mem_keys.mpr (mem_of_lookup_eq_some hdev)) v hv hreal

theorem backed_of_placeholders (h : ForReal st.allocatableBandwidth fun _ _ => False) :
    Backed reports st :=
  fun _ _ _ hv hreal => (h.apply hv hreal).elim

theorem Backed.mono {reports' : List UpdateNodeIOStatusRequest} (h : Backed reports st)
    (hsub : ∀ req ∈ reports, req ∈ reports') : Backed reports' st := by
  intro t dev v hv hreal
  obtain ⟨req, hmem, hgen, hbw⟩ := h t dev v hv hreal
  exact ⟨req, hsub req hmem, hgen, hbw⟩

/-- The merge of a report: its own values are new, the others keep their generation. -/
theorem Backed.merge (h : Backed reports c) (hreq : req ∈ reports)
    (hkept : req.observedGeneration = c.observedGeneration ∨
      ForReal c.allocatableBandwidth fun t dev => req.Reports t dev .ga) :
    Backed reports (updateNodeIOStatusCache req c) := by
  intro t dev v hv hreal
  rcases pool_updateNodeIOStatusCache hv with hnew | ⟨hold, hnot⟩
  · exact ⟨req, hreq, rfl, hnew⟩
  rcases hkept with hgen | hall
  · have := h t dev v hold hreal
    rw [← hgen] at this
    exact this
  · exact absurd (hall.apply hold hreal) hnot

/-- The resource becomes the entry under the generation of the spec. -/
theorem Backed.read {obj : NodeIOStatus} (h : Backed reports obj.status) (hkept : ReadKept obj) :
    Backed reports { obj.status with observedGeneration := obj.spec.generation } := by
  rcases hkept with hgen | hnone
  · rw [← hgen]
    exact h
  · exact backed_of_placeholders hnone

theorem Backed.copies {old new c' : NodeIOStatusStatus} (h : Backed reports c)
    (hnew : Backed reports new)
    (hcopies : CopiesFrom old.allocatableBandwidth new.allocatableBandwidth c c')
    (hkept : new.observedGeneration = c.observedGeneration ∨
      ForReal new.allocatableBandwidth fun t dev => ¬ Appears old.allocatableBandwidth t dev) :
    Backed reports c' := by
  intro t dev v hv hreal
  rw [hcopies.1]
  rcases hcopies.2 t dev .ga v hv with hold | ⟨happears, hv'⟩
  · exact h t dev v hold hreal
  rcases hkept with hgen | hnone
  · rw [← hgen]
    exact hnew t dev v hv' hreal
  · exact absurd happears (hnone.apply hv' hreal)

theorem Backed.placeholders (h : Backed reports st)
    (hgen : st'.observedGeneration = st.observedGeneration)
    (hpool : ∀ t dev v, pool st'.allocatableBandwidth t dev .ga = some v →
      pool st.allocatableBandwidth t dev .ga = some v ∨ v.inBps < 0) : Backed reports st' := by
  intro t dev v hv hreal
  rw [hgen]
  rcases hpool t dev v hv with hv | hneg
  · exact h t dev v hv hreal
  · exact absurd hreal (not_le.mpr hneg)

/-! ## What the scheduler writes -/

theorem notReported_lookup {qos : WorkloadQoSType} (h : Sched.notReported.lookup qos = some v) :
    v.inBps < 0 := by
  unfold Sched.notReported at h
  rw [Dict.lookup_insert_ite] at h
  split_ifs at h with hqos
  · cases h
    decide
  · obtain ⟨-, rfl⟩ := Dict.eq_of_lookup_singleton h
    decide

theorem notReported_of_mapVals {pools : Dict WorkloadQoSType IOStatus}
    (h : (Dict.mapVals (fun _ _ => Sched.notReported) adds).lookup dev = some pools) :
    pools = Sched.notReported := by
  rw [Dict.lookup_mapVals] at h
  obtain ⟨-, -, rfl⟩ := map_eq_some_iff.mp h
  rfl

theorem Backed.addTypes (h : Backed reports st) (config : Dict WorkloadIOType ResourceConfigSpec)
    (typ : Option WorkloadIOType) :
    Backed reports (Sched.updateNodeIOStatusInType (Sched.composeAllocableBW config typ) st) := by
  refine h.placeholders rfl fun t dev v hv => ?_
  simp only [Sched.updateNodeIOStatusInType, pool, Dict.lookup_union_ite] at hv
  split_ifs at hv with hmem
  · right
    simp only [Sched.composeAllocableBW, Dict.lookup_filterMapVals] at hv
    obtain ⟨pools, hpools, hv⟩ := bind_eq_some_iff.mp hv
    obtain ⟨devices, hdevices, hdev⟩ := bind_eq_some_iff.mp hpools
    obtain ⟨rc, -, hrc⟩ := bind_eq_some_iff.mp hdevices
    split_ifs at hrc
    cases hrc
    rw [notReported_of_mapVals hdev] at hv
    exact notReported_lookup hv
  · exact .inl hv

theorem Backed.changeDevices (h : Backed reports st) {name : String} {dels : Dict String Device}
    (hst : Sched.updateNodeIOStatusInDevice name t adds dels st = .ok st') :
    Backed reports st' := by
  unfold Sched.updateNodeIOStatusInDevice at hst
  split at hst
  · cases hst
  rename_i devices hdevices
  cases hst
  refine h.placeholders rfl fun t' dev v hv => ?_
  simp only [pool, Dict.lookup_insert_ite] at hv
  split_ifs at hv with ht
  · subst ht
    simp only [bind_some, Dict.lookup_without, Dict.lookup_union_ite] at hv
    split_ifs at hv with hdel hadd
    · cases hv
    · obtain ⟨pools, hpools, hv⟩ := bind_eq_some_iff.mp hv
      rw [notReported_of_mapVals hpools] at hv
      exact .inr (notReported_lookup hv)
    · exact .inl (by rw [pool, hdevices]; exact hv)
  · exact .inl hv

/-! ## The invariant -/

structure AggrBacked (reports : List UpdateNodeIOStatusRequest) (a : Aggregator) : Prop where
  cache : ∀ c ∈ a.cache, Backed reports c
  channel : ∀ req ∈ a.nodeStatusCh, req ∈ reports
  watch : ∀ x ∈ a.watch, Backed reports x.status

/-- Every status in the system is backed by reports of its generation. -/
structure Inv (s : State) : Prop where
  cr : Backed s.reports s.cr.status
  watch : ∀ x ∈ s.watch, Backed s.reports x.status
  aggr : ∀ a ∈ s.aggr, AggrBacked s.reports a

theorem Start.inv (h : Start s) : Inv s :=
  ⟨backed_of_placeholders h.cr, by simp [h.watch], by simp [h.aggr]⟩

theorem Inv.setCR (h : Inv s) {cr : NodeIOStatus} (hcr : Backed s.reports cr.status) :
    Inv (s.setCR cr) := by
  have hwatch : ∀ l : List NodeIOStatus, (∀ x ∈ l, Backed s.reports x.status) →
      ∀ x ∈ l ++ [cr], Backed s.reports x.status := by
    intro l hl x hx
    rcases mem_append.mp hx with hx | hx
    · exact hl x hx
    · exact mem_singleton.mp hx ▸ hcr
  refine ⟨hcr, hwatch _ h.watch, fun a ha => ?_⟩
  obtain ⟨b, hb, rfl⟩ := map_eq_some_iff.mp ha
  exact ⟨(h.aggr b hb).cache, (h.aggr b hb).channel, hwatch _ (h.aggr b hb).watch⟩

theorem Inv.setAggr (h : Inv s) {a : Option Aggregator}
    (ha : ∀ x ∈ a, AggrBacked s.reports x) : Inv { s with aggr := a } :=
  ⟨h.cr, h.watch, ha⟩

theorem merged_backed (h : Inv s) (hm : merged S s e = some (req, a, c)) :
    req ∈ s.reports ∧ AggrBacked s.reports a ∧ Backed s.reports c := by
  unfold merged at hm
  split at hm
  · rename_i i a' ha
    split at hm
    · rename_i req' c' hreq hc
      split_ifs at hm
      cases hm
      exact ⟨mem_of_getElem? hreq, h.aggr a ha, (h.aggr a ha).cache c hc⟩
    · cases hm
  · rename_i a' ha
    split at hm
    · rename_i req' rest c' hch hc
      cases hm
      have hb := h.aggr a' ha
      refine ⟨hb.channel req (hch ▸ mem_cons_self), ⟨hb.cache, fun x hx => ?_, hb.watch⟩,
        hb.cache c hc⟩
      exact hb.channel x (hch ▸ mem_cons_of_mem _ hx)
    · cases hm
  · cases hm

theorem inv_merged (h : Inv s) (hm : merged S s e = some (req, a, c)) (hkept : MergeKept S s e) :
    Inv { s with aggr := some { a with cache := some (updateNodeIOStatusCache req c) } } := by
  obtain ⟨hreq, ha, hc⟩ := merged_backed h hm
  refine h.setAggr fun x hx => ?_
  cases hx
  refine ⟨fun x hx => ?_, ha.channel, ha.watch⟩
  cases hx
  exact hc.merge hreq (hkept _ hm)

theorem inv_call (h : Inv s) {i : Nat} (hkept : MergeKept S s (.call i))
    (hs : step S s (.call i) = some s') : Inv s' := by
  simp only [step] at hs
  split at hs
  · rename_i req a c hm
    cases hs
    exact inv_merged h hm hkept
  split at hs
  · rename_i req a hreq ha
    split_ifs at hs
    · cases hs
      exact h
    cases hs
    have hb := h.aggr a ha
    refine h.setAggr fun x hx => ?_
    cases hx
    refine ⟨hb.cache, fun x hx => ?_, hb.watch⟩
    rcases mem_append.mp hx with hx | hx
    · exact hb.channel x hx
    · exact mem_singleton.mp hx ▸ mem_of_getElem? hreq
  · cases hs

/-- The informer of the aggregator hands out the next state of the resource. -/
theorem inv_follow (h : Inv s) (hkept : LabelKept S s .follow)
    (hs : step S s .follow = some s') : Inv s' := by
  simp only [step] at hs
  split at hs
  · rename_i a ha
    split at hs
    · rename_i new rest hwatch
      split at hs
      · rename_i cache hcache
        cases hs
        have hb := h.aggr a ha
        have hnew := hb.watch new (hwatch ▸ mem_cons_self)
        have hfollow := hkept a ha new (by rw [hwatch]; rfl)
        refine h.setAggr fun x hx => ?_
        cases hx
        refine ⟨fun c' hc' => ?_, hb.channel, fun x hx => ?_⟩
        · obtain rfl : cache = some c' := hc'
          cases hc : a.cache with
          | none =>
            rw [hc] at hcache hfollow
            rw [updateNodeIOStatusCR_none hcache]
            exact hnew.read hfollow
          | some c =>
            rw [hc] at hcache hfollow
            obtain ⟨c'', heq, hcopies⟩ := pool_updateNodeIOStatusCR hcache
            cases heq
            exact (hb.cache c hc).copies hnew hcopies hfollow
        · exact hb.watch x (hwatch ▸ mem_cons_of_mem _ hx)
      · cases hs
    · cases hs
  · cases hs

theorem inv_restart (h : Inv s) {known : Bool} (hkept : ReadKept s.cr)
    (hs : step S s (.restart known) = some s') : Inv s' := by
  simp only [step] at hs
  split at hs
  · cases hs
    refine h.setAggr fun x hx => ?_
    cases hx
    refine ⟨fun c hc => ?_, by simp, by simp⟩
    simp only [addNodeIOStatusCR] at hc
    split_ifs at hc
    · cases hc
      exact h.cr.read hkept
    · cases hc
  · cases hs

/-! ## Runs -/

theorem inv_step (s : State) (e : Event) (s' : State) (hs : step S s e = some s')
    (hkept : LabelKept S s e) (h : Inv s) : Inv s' := by
  cases e with
  | compute req =>
    simp only [step] at hs
    split_ifs at hs
    cases hs
    have hsub : ∀ x ∈ s.reports, x ∈ s.reports ++ [req] := fun _ hx => mem_append_left _ hx
    refine ⟨h.cr.mono hsub, fun x hx => (h.watch x hx).mono hsub, fun a ha => ?_⟩
    have hb := h.aggr a ha
    exact ⟨fun c hc => (hb.cache c hc).mono hsub, fun x hx => hsub x (hb.channel x hx),
      fun x hx => (hb.watch x hx).mono hsub⟩
  | call i => exact inv_call h hkept hs
  | merge =>
    simp only [step, map_eq_some_iff] at hs
    obtain ⟨⟨req, a, c⟩, hm, rfl⟩ := hs
    exact inv_merged h hm hkept
  | write =>
    simp only [step] at hs
    split at hs
    · rename_i c hc
      cases hs
      obtain ⟨a, ha, hc⟩ := bind_eq_some_iff.mp hc
      exact h.setCR ((h.aggr a ha).cache c hc)
    · cases hs
  | stamp =>
    simp only [step] at hs
    split at hs
    · rename_i a ha
      split at hs
      · cases hs
        refine h.setAggr fun x hx => ?_
        cases hx
        exact ⟨(h.aggr a ha).cache, (h.aggr a ha).channel, (h.aggr a ha).watch⟩
      · cases hs
    · cases hs
  | follow => exact inv_follow h hkept hs
  | stop =>
    cases hs
    exact h.setAggr (by simp)
  | restart known => exact inv_restart h hkept hs
  | writeSpec spec =>
    simp only [step] at hs
    split_ifs at hs
    cases hs
    exact h.setCR h.cr
  | addTypes config typ =>
    cases hs
    exact h.setCR (h.cr.addTypes config typ)
  | changeDevices t adds dels =>
    simp only [step] at hs
    split at hs
    · rename_i st hst
      cases hs
      exact h.setCR (h.cr.changeDevices hst)
    · cases hs
      exact h
  | reserve | deletePod =>
    simp only [step] at hs
    split at hs
    · cases hs
      exact { h with }
    · cases hs
  | notify | skip =>
    simp only [step] at hs
    split at hs
    · rename_i new rest hwatch
      cases hs
      exact ⟨h.cr, fun x hx => h.watch x (hwatch ▸ mem_cons_of_mem _ hx), h.aggr⟩
    · cases hs

theorem reported_pool (h : Sched.reported k st dev = some b)
    (hlisted : ∀ bw ∈ st.allocatableBandwidth.lookup k.workloadIOType, bw ≠ ∅ →
      (pool st.allocatableBandwidth k.workloadIOType dev .ga).isSome = true) :
    ∃ v, pool st.allocatableBandwidth k.workloadIOType dev .ga = some v ∧ 0 ≤ v.inBps ∧
      bandwidthOf v = b := by
  unfold Sched.reported at h
  cases hbw : st.allocatableBandwidth.lookup k.workloadIOType with
  | none => simp [hbw] at h
  | some bw =>
    simp only [hbw] at h
    split_ifs at h with hempty
    obtain ⟨v, hv⟩ := isSome_iff_exists.mp (hlisted bw hbw hempty)
    obtain ⟨pools, hpools, hga⟩ := bind_eq_some_iff.mp hv
    have hdev : bw.lookup dev = some pools := by simpa [hbw] using hpools
    simp only [Sched.calculateStatus, hdev, hga] at h
    split_ifs at h with hneg
    · cases h
    · cases h
      exact ⟨v, hv, not_lt.mp hneg, rfl⟩

theorem Inv.fresh (h : Inv s) (hkept : LabelKept S s e) : Fresh S s e := by
  cases e with
  | notify classOrder =>
    intro new hnew k dev b hb
    simp only [installs] at hb
    split_ifs at hb with hc
    obtain ⟨⟨rp, hrp, -, -, hgen⟩, hk, hdev⟩ := hc
    obtain ⟨v, hv, hreal, hval⟩ := reported_pool hb (hkept new hnew k hk dev hdev)
    have hcomputed := h.watch new (mem_of_mem_head? hnew) _ dev v hv hreal
    exact ⟨rp, v, hrp, hgen ▸ hcomputed, hval⟩
  | _ => trivial

/-- In every run in which every value stays under its generation, and every status lists all devices
when the scheduler takes it over, the scheduler takes over fresh bandwidths only. -/
theorem fresh_of_labelKept (S : Setting) {s : State} (es : List Event) (hstart : Start s)
    (hkept : Along (step S) (LabelKept S) s es) : Along (step S) (Fresh S) s es :=
  along_of_invariant inv_step (fun _ _ hk hi => hi.fresh hk) hstart.inv hkept

/-- What the informer of the scheduler changes is what `installs` says. -/
theorem notify_cached {classOrder : List String} {new : NodeIOStatus} {rest : List NodeIOStatus}
    (hwatch : s.watch = new :: rest) (hs : step S s (.notify classOrder) = some s')
    (hk : k ∈ S.handles) {m : String} (hb : Sched.cached s'.sched.caches k m dev = some b) :
    Sched.cached s.sched.caches k m dev = some b ∨ installs S s new k dev = some b := by
  simp only [step, hwatch, some.injEq] at hs
  subst hs
  obtain ⟨-, heq | ⟨happly, hover⟩⟩ :=
    Sched.updateNodeIOStatus_cached S.hash S.handles s.seen new classOrder s.sched
  · rw [heq] at hb
    exact .inl hb
  rcases hover.cached k m dev with heq | ⟨rfl, hsome, x, hx, hc⟩
  · exact .inl (heq ▸ hb)
  right
  obtain ⟨y, hy⟩ := isSome_iff_exists.mp hsome
  rw [installs, if_pos ⟨happly, hk, Sched.mem_devices hy⟩, hx, ← hc, hb]

/-! ## Two I/O types under one generation

A node with a disk and a network card. The pod list of the scheduler is of generation 1; the agent
reports the card at generation 0 and the disk at generation 1. -/

def setting : Setting :=
  { node := "n"
    handles := [.blockIo, .networkIo]
    hash := fun st => st.observedGeneration.toNat
    direct := false }

def start : State :=
  let cr : NodeIOStatus :=
    { spec := ⟨"n", 0, ∅⟩
      status := ⟨0, (Finmap.singleton .blockIo (Finmap.singleton "sda" Sched.notReported) :
        AllocatableBandwidth).insert .networkIo (Finmap.singleton "eth0" Sched.notReported)⟩ }
  let pools : Sched.Pools := ⟨.zero, .zero⟩
  { cr := cr
    reports := []
    aggr := none
    sched :=
      { caches := { Sched.StatusRace.sdaCaches with
          networkIo := Finmap.singleton "n" ⟨"n", ⟨Finmap.singleton "eth0" ⟨pools, 0⟩, "eth0"⟩⟩ }
        env := { Sched.BlockIo.sdaEnv with
          ctx := { Sched.BlockIo.sdaEnv.ctx with
            reservedpod := Finmap.singleton "n" ⟨1, ∅⟩ } } }
    seen := cr
    watch := [] }

theorem start_start : Start start := ⟨rfl, rfl, by decide +kernel, rfl⟩

def reportOf (generation : Int) (t : IOType) (dev : String) (v : IOStatus) :
    UpdateNodeIOStatusRequest :=
  { nodeName := "n"
    observedGeneration := generation
    ioBw := [⟨t, Finmap.singleton dev (Finmap.singleton .ga v)⟩] }

def cardReport : UpdateNodeIOStatusRequest := reportOf 0 .networkIo "eth0" ⟨200, 100, 100, 0⟩

def diskReport : UpdateNodeIOStatusRequest := reportOf 1 .diskIo "sda" ⟨120, 80, 80, 0⟩

/-- The spec of generation 1 gets to the aggregator, and to the scheduler's informer. -/
def nextSpec : List Event := [.writeSpec ⟨"n", 1, ∅⟩, .follow, .stamp, .stamp, .notify []]

def mixed : List Event :=
  [Event.restart false, .compute cardReport, .call 0, .merge] ++ nextSpec ++
    [Event.compute diskReport, .call 1, .merge, .write]

/-- What the next notification makes the scheduler take over for a device. -/
def nextInstall (t : State) (k : HandleKind) (dev : String) : Option Bandwidth :=
  t.watch.head?.bind fun new => installs setting t new k dev

theorem not_alwaysFresh : ¬ AlwaysFresh := by
  intro h
  obtain ⟨t, ht, hinstall, hreports, hlist, hname⟩ : ∃ t ∈ run (step setting) start mixed,
      nextInstall t .networkIo "eth0" = some (100, 100, 200) ∧
        t.reports = [cardReport, diskReport] ∧
        t.sched.env.ctx.reservedpod.lookup "n" = some ⟨1, ∅⟩ ∧
        ∀ new ∈ t.watch, new.spec.nodeName = "n" := by
    decide +kernel
  have hfresh := ((h setting start (mixed ++ [.notify []]) start_start).of_append ht).1
  obtain ⟨new, hnew, hinstall⟩ := bind_eq_some_iff.mp hinstall
  obtain ⟨rp, v, hrp, ⟨req, hreq, hgen, bw, hbw, hv⟩, -⟩ := hfresh new hnew _ _ _ hinstall
  rw [hname new (mem_of_mem_head? hnew), hlist, some.injEq] at hrp
  rw [hreports] at hreq
  -- only the report of the disk is of generation 1
  have hnone : ∀ req ∈ [cardReport, diskReport], req.observedGeneration = 1 →
      ∀ bw ∈ req.ioBw, bw.pool .networkIo "eth0" .ga = none := by decide +kernel
  rw [← hrp] at hgen
  rw [show HandleKind.networkIo.workloadIOType = .networkIo from rfl,
    hnone req hreq hgen bw hbw] at hv
  cases hv

def diskOnly : List Event :=
  [Event.restart false] ++ nextSpec ++ [Event.compute diskReport, .call 0, .merge, .write]

theorem fresh_of_labelKept_diskOnly :
    ∃ t, run (step setting) start diskOnly = some t ∧
      nextInstall t .blockIo "sda" = some (80, 80, 120) ∧ Fresh setting t (.notify []) := by
  refine exists_run (by decide +kernel) fun t ht _ => ?_
  have hkept : Along (step setting) (LabelKept setting) start (diskOnly ++ [.notify []]) := by
    decide +kernel
  have hfresh := fresh_of_labelKept setting (diskOnly ++ [.notify []]) start_start hkept
  exact (hfresh.of_append ht).1

end IOIsolation.Aggr.StatusFreshness
