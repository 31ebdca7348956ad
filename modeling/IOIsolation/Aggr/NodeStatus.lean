import IOIsolation.Lib.Outcome
import IOIsolation.Types

/-!
# Aggr.NodeStatus

The status of a node in the aggregator's cache `nodeInfo4Sched`. Reports of the agent are merged
into it (`updateNodeIOStatusCache`); it starts as the status of the custom resource
(`addNodeIOStatusCR`) and follows the I/O types and disks that appear there
(`updateNodeIOStatusCR`). One `ObservedGeneration` labels the whole status.

* `pool_updateNodeIOStatusCache` — a pool after a merge is from the report, or it is the old one and
  the report has none for it.
* `pool_updateNodeIOStatusCR`    — a pool after an update of the resource is the old one, or copied
  from the resource.
-/

namespace IOIsolation.Aggr

open Lib Finmap Dict Option

/-! ## Reports -/

structure IOBandwidth where
  ioType : IOType
  deviceBwInfo : Dict String (Dict WorkloadQoSType IOStatus)
  deriving DecidableEq

structure UpdateNodeIOStatusRequest where
  nodeName : String
  observedGeneration : Int
  ioBw : List IOBandwidth
  deriving DecidableEq

/-- The types the merge handles; the others are passed over. -/
def workloadIOType : IOType → Option WorkloadIOType
  | .diskIo => some .blockIo
  | .networkIo => some .networkIo
  | .rdt => some .rdt
  | .all => none
  | .rdtQuantity => none

/-- Reported pools replace registered ones. -/
def mergeDevice (info pools : Dict WorkloadQoSType IOStatus) : Dict WorkloadQoSType IOStatus :=
  Dict.mapVals (fun qos old => (info.lookup qos).getD old) pools

def mergeDevices (bwInfo devices : Dict String (Dict WorkloadQoSType IOStatus)) :
    Dict String (Dict WorkloadQoSType IOStatus) :=
  Dict.mapVals (fun dev pools => mergeDevice ((bwInfo.lookup dev).getD ∅) pools) devices

/-- One I/O type of a report; an I/O type that is not registered is passed over. -/
def mergeType (m : AllocatableBandwidth) (bw : IOBandwidth) : AllocatableBandwidth :=
  match workloadIOType bw.ioType with
  | some iotype => Dict.adjust iotype (mergeDevices bw.deviceBwInfo) m
  | none => m

/-- `updateNodeIOStatusCache`: the generation of the report becomes that of the whole status. -/
def updateNodeIOStatusCache (req : UpdateNodeIOStatusRequest) (status : NodeIOStatusStatus) :
    NodeIOStatusStatus :=
  { observedGeneration := req.observedGeneration
    allocatableBandwidth := req.ioBw.foldl mergeType status.allocatableBandwidth }

/-! ## The custom resource -/

/-- The part of `AddNodeIOStatusCR` that registers the status: it is taken as observed at the
generation of the spec. -/
def addNodeIOStatusCR (obj : NodeIOStatus) (cache : Option NodeIOStatusStatus) :
    Option NodeIOStatusStatus :=
  if obj.status.allocatableBandwidth ≠ ∅ then
    some { obj.status with observedGeneration := obj.spec.generation }
  else cache

def addResourcetoCache (old new : AllocatableBandwidth) (c : NodeIOStatusStatus) :
    NodeIOStatusStatus :=
  { c with allocatableBandwidth := Dict.without new old ∪ c.allocatableBandwidth }

def addDeviceToCache (iotype : WorkloadIOType)
    (addDev : Dict String (Dict WorkloadQoSType IOStatus)) (c : NodeIOStatusStatus) :
    NodeIOStatusStatus :=
  let devices := (c.allocatableBandwidth.lookup iotype).getD ∅
  { c with allocatableBandwidth := c.allocatableBandwidth.insert iotype (addDev ∪ devices) }

def delDeviceToCache (iotype : WorkloadIOType)
    (delDev : Dict String (Dict WorkloadQoSType IOStatus)) (c : NodeIOStatusStatus) :
    NodeIOStatusStatus :=
  { c with
    allocatableBandwidth :=
      Dict.adjust iotype (fun devices => Dict.without devices delDev) c.allocatableBandwidth }

/-- `f` on the cache entry of the node, if there is anything to change; a missing entry is a nil
dereference. -/
def onEntry (needed : Bool) (f : NodeIOStatusStatus → NodeIOStatusStatus)
    (cache : Option NodeIOStatusStatus) : Outcome (Option NodeIOStatusStatus) :=
  if needed then do
    let c ← .ofOption cache
    return some (f c)
  else .done cache

/-- The disks that appeared or went away, when their number changed. -/
def updateDisks (old new : AllocatableBandwidth) (cache : Option NodeIOStatusStatus) :
    Outcome (Option NodeIOStatusStatus) :=
  match new.lookup .blockIo, old.lookup .blockIo with
  | some ninfo, some oinfo =>
    if ninfo.keys.card = oinfo.keys.card then .done cache
    else do
      let addDev := Dict.without ninfo oinfo
      let delDev := Dict.without oinfo ninfo
      let cache ← onEntry (addDev ≠ ∅) (addDeviceToCache .blockIo addDev) cache
      onEntry (delDev ≠ ∅) (delDeviceToCache .blockIo delDev) cache
  | _, _ => .done cache

/-- The first status of the resource becomes the entry. -/
def Registers (oldObj newObj : NodeIOStatus) (cache : Option NodeIOStatusStatus) : Prop :=
  cache = none ∧ oldObj.status.allocatableBandwidth = ∅ ∧ newObj.status.allocatableBandwidth ≠ ∅

instance (oldObj newObj : NodeIOStatus) (cache : Option NodeIOStatusStatus) :
    Decidable (Registers oldObj newObj cache) :=
  inferInstanceAs (Decidable (_ ∧ _ ∧ _))

/-- The old status as it is after the new resource types are in the cache. The entry is a pointer: when it
points to the status of the old object (`shared`), the object has got them too. -/
def oldStatusAfter (shared : Bool) (old new : AllocatableBandwidth) : AllocatableBandwidth :=
  if shared ∧ old ≠ ∅ ∧ old.keys.card < new.keys.card then Dict.without new old ∪ old else old

def updateNodeIOStatusCR (shared : Bool) (oldObj newObj : NodeIOStatus)
    (cache : Option NodeIOStatusStatus) : Outcome (Option NodeIOStatusStatus) :=
  let old := oldObj.status.allocatableBandwidth
  let new := newObj.status.allocatableBandwidth
  -- first time update status
  let cache :=
    if Registers oldObj newObj cache then
      some { newObj.status with observedGeneration := newObj.spec.generation }
    else cache
  -- new resource type; without an entry this is only logged
  let cache :=
    if old ≠ ∅ ∧ old.keys.card < new.keys.card then cache.map (addResourcetoCache old new)
    else cache
  let old := oldStatusAfter shared old new
  if old.keys.card = new.keys.card then updateDisks old new cache else .done cache

/-! ## Single pools -/

def pool (m : AllocatableBandwidth) (t : WorkloadIOType) (dev : String) (qos : WorkloadQoSType) :
    Option IOStatus :=
  ((m.lookup t).bind fun devices => devices.lookup dev).bind fun pools => pools.lookup qos

def IOBandwidth.pool (bw : IOBandwidth) (t : WorkloadIOType) (dev : String)
    (qos : WorkloadQoSType) : Option IOStatus :=
  if workloadIOType bw.ioType = some t then
    (bw.deviceBwInfo.lookup dev).bind fun pools => pools.lookup qos
  else none

def UpdateNodeIOStatusRequest.Reports (req : UpdateNodeIOStatusRequest) (t : WorkloadIOType)
    (dev : String) (qos : WorkloadQoSType) : Prop :=
  ∃ bw ∈ req.ioBw, (bw.pool t dev qos).isSome = true

instance (req : UpdateNodeIOStatusRequest) (t : WorkloadIOType) (dev : String)
    (qos : WorkloadQoSType) : Decidable (req.Reports t dev qos) :=
  inferInstanceAs (Decidable (∃ bw ∈ req.ioBw, _))

/-- One part of a report replaces the registered pools it has a value for. -/
theorem pool_mergeType (m : AllocatableBandwidth) (bw : IOBandwidth) (t : WorkloadIOType)
    (dev : String) (qos : WorkloadQoSType) :
    pool (mergeType m bw) t dev qos =
      (pool m t dev qos).map fun old => (bw.pool t dev qos).getD old := by
  unfold mergeType
  cases ht : workloadIOType bw.ioType with
  | none => simp [IOBandwidth.pool, ht]
  | some iotype =>
    by_cases heq : t = iotype
    · subst heq
      simp only [pool, lookup_adjust_self, IOBandwidth.pool, ht, if_true]
      cases m.lookup t with
      | none => rfl
      | some devices =>
        simp only [map_some, bind_some, mergeDevices, lookup_mapVals]
        cases devices.lookup dev with
        | none => rfl
        | some pools =>
          simp only [map_some, bind_some, mergeDevice, lookup_mapVals]
          cases bw.deviceBwInfo.lookup dev <;> rfl
    · have hne : workloadIOType bw.ioType ≠ some t := by
        rw [ht]
        exact fun h => heq (some.inj h).symm
      simp [pool, lookup_adjust_ne heq, IOBandwidth.pool, hne]

variable {dev : String} {qos : WorkloadQoSType} {t : WorkloadIOType} {v : IOStatus}
  {r : Option NodeIOStatusStatus}

/-- By induction on the parts of the report; later parts replace earlier ones. -/
theorem pool_foldl_mergeType {parts : List IOBandwidth} :
    ∀ {m : AllocatableBandwidth}, pool (parts.foldl mergeType m) t dev qos = some v →
      (∃ bw ∈ parts, bw.pool t dev qos = some v) ∨
        pool m t dev qos = some v ∧ ∀ bw ∈ parts, bw.pool t dev qos = none := by
  induction parts with
  | nil => exact fun h => .inr ⟨h, by simp⟩
  | cons bw rest ih =>
    intro m h
    rcases ih h with ⟨x, hx, hv⟩ | ⟨hv, hnone⟩
    · exact .inl ⟨x, List.mem_cons_of_mem _ hx, hv⟩
    rw [pool_mergeType] at hv
    obtain ⟨old, hold, hv⟩ := map_eq_some_iff.mp hv
    cases hbw : bw.pool t dev qos with
    | some w =>
      rw [hbw] at hv
      exact .inl ⟨bw, List.mem_cons_self, hbw.trans (congrArg some hv)⟩
    | none =>
      rw [hbw] at hv
      refine .inr ⟨hold.trans (congrArg some hv), fun x hx => ?_⟩
      rcases List.mem_cons.mp hx with rfl | hx
      · exact hbw
      · exact hnone x hx

theorem pool_updateNodeIOStatusCache {req : UpdateNodeIOStatusRequest} {status : NodeIOStatusStatus}
    (h : pool (updateNodeIOStatusCache req status).allocatableBandwidth t dev qos = some v) :
    (∃ bw ∈ req.ioBw, bw.pool t dev qos = some v) ∨
      pool status.allocatableBandwidth t dev qos = some v ∧ ¬ req.Reports t dev qos := by
  refine (pool_foldl_mergeType h).imp_right fun ⟨hold, hnone⟩ => ⟨hold, ?_⟩
  rintro ⟨bw, hbw, hsome⟩
  rw [hnone bw hbw] at hsome
  cases hsome

/-! ## Pools that are copied from the resource -/

def Appears (old : AllocatableBandwidth) (t : WorkloadIOType) (dev : String) : Prop :=
  ((old.lookup t).bind fun devices => devices.lookup dev) = none

instance (old : AllocatableBandwidth) (t : WorkloadIOType) (dev : String) :
    Decidable (Appears old t dev) :=
  inferInstanceAs (Decidable (_ = none))

/-- The pools of `c'` are pools of `c`, or of devices that appear in `new`. -/
def CopiesFrom (old new : AllocatableBandwidth) (c c' : NodeIOStatusStatus) : Prop :=
  c'.observedGeneration = c.observedGeneration ∧ ∀ t dev qos v,
    pool c'.allocatableBandwidth t dev qos = some v →
      pool c.allocatableBandwidth t dev qos = some v ∨
        Appears old t dev ∧ pool new t dev qos = some v

theorem CopiesFrom.refl (old new : AllocatableBandwidth) (c : NodeIOStatusStatus) :
    CopiesFrom old new c c :=
  ⟨rfl, fun _ _ _ _ h => .inl h⟩

variable {c : NodeIOStatusStatus} {new old : AllocatableBandwidth}

theorem CopiesFrom.trans {a b : NodeIOStatusStatus} (h₁ : CopiesFrom old new a b)
    (h₂ : CopiesFrom old new b c) : CopiesFrom old new a c := by
  refine ⟨h₂.1.trans h₁.1, fun t dev qos v h => ?_⟩
  rcases h₂.2 t dev qos v h with h | h
  · exact h₁.2 t dev qos v h
  · exact .inr h

theorem CopiesFrom.oldStatusAfter {shared : Bool} {c' : NodeIOStatusStatus}
    (h : CopiesFrom (oldStatusAfter shared old new) new c c') : CopiesFrom old new c c' := by
  refine ⟨h.1, fun t dev qos v hv => (h.2 t dev qos v hv).imp_right fun ⟨happ, hnew⟩ => ⟨?_, hnew⟩⟩
  unfold Aggr.oldStatusAfter at happ
  split_ifs at happ
  · unfold Appears at happ ⊢
    cases hl : old.lookup t with
    | none => rfl
    | some devices =>
      have hmem : t ∈ old := mem_of_lookup_eq_some hl
      have hout : t ∉ without new old := by
        rw [← lookup_eq_none, lookup_without, if_pos hmem]
      rwa [lookup_union_ite, if_neg hout, hl] at happ
  · exact happ

theorem addResourcetoCache_copies (old new : AllocatableBandwidth) (c : NodeIOStatusStatus) :
    CopiesFrom old new c (addResourcetoCache old new c) := by
  refine ⟨rfl, fun t dev qos v h => ?_⟩
  simp only [addResourcetoCache, pool, lookup_union_ite, lookup_without] at h
  split_ifs at h with hmem hold
  · cases h
  · refine .inr ⟨?_, h⟩
    unfold Appears
    rw [lookup_eq_none.mpr hold]
    rfl
  · exact .inl h

theorem addDeviceToCache_copies {iotype : WorkloadIOType}
    {ninfo oinfo : Dict String (Dict WorkloadQoSType IOStatus)}
    (hnew : new.lookup iotype = some ninfo) (hold : old.lookup iotype = some oinfo)
    (c : NodeIOStatusStatus) :
    CopiesFrom old new c (addDeviceToCache iotype (without ninfo oinfo) c) := by
  refine ⟨rfl, fun t dev qos v h => ?_⟩
  simp only [addDeviceToCache, pool, lookup_insert_ite] at h
  split_ifs at h with ht
  · subst ht
    simp only [bind_some, lookup_union_ite, lookup_without] at h
    split_ifs at h with hmem hdev
    · cases h
    · refine .inr ⟨?_, ?_⟩
      · simp [Appears, hold, lookup_eq_none.mpr hdev]
      · simpa [pool, hnew] using h
    left
    unfold pool
    cases hl : c.allocatableBandwidth.lookup t with
    | none => simp [hl] at h
    | some devices => simpa [hl] using h
  · exact .inl h

theorem delDeviceToCache_copies (old new : AllocatableBandwidth) (iotype : WorkloadIOType)
    (delDev : Dict String (Dict WorkloadQoSType IOStatus)) (c : NodeIOStatusStatus) :
    CopiesFrom old new c (delDeviceToCache iotype delDev c) := by
  refine ⟨rfl, fun t dev qos v h => .inl ?_⟩
  simp only [delDeviceToCache, pool, lookup_adjust] at h
  split_ifs at h with ht
  · subst ht
    unfold pool
    cases hl : c.allocatableBandwidth.lookup t with
    | none => simp [hl] at h
    | some devices =>
      simp only [hl, map_some, bind_some, lookup_without] at h
      split_ifs at h
      · cases h
      · exact h
  · exact h

theorem onEntry_copies {needed : Bool} {f : NodeIOStatusStatus → NodeIOStatusStatus}
    (hf : CopiesFrom old new c (f c)) (h : onEntry needed f (some c) = .done r) :
    ∃ c', r = some c' ∧ CopiesFrom old new c c' := by
  unfold onEntry at h
  split_ifs at h
  · cases h
    exact ⟨f c, rfl, hf⟩
  · cases h
    exact ⟨c, rfl, .refl _ _ c⟩

theorem updateDisks_copies (h : updateDisks old new (some c) = .done r) :
    ∃ c', r = some c' ∧ CopiesFrom old new c c' := by
  unfold updateDisks at h
  split at h
  · rename_i ninfo oinfo hnew hold
    split_ifs at h
    · cases h
      exact ⟨c, rfl, .refl _ _ c⟩
    simp only [Outcome.bind_eq_done] at h
    obtain ⟨r1, hadd, hdel⟩ := h
    obtain ⟨c1, rfl, h1⟩ := onEntry_copies (addDeviceToCache_copies hnew hold c) hadd
    obtain ⟨c2, rfl, h2⟩ := onEntry_copies (delDeviceToCache_copies old new .blockIo _ c1) hdel
    exact ⟨c2, rfl, h1.trans h2⟩
  · cases h
    exact ⟨c, rfl, .refl _ _ c⟩

/-! ## The cases of an update -/

section Update

variable {shared : Bool} {oldObj newObj : NodeIOStatus} {cache : Option NodeIOStatusStatus}

theorem keys_card_eq_zero {m : AllocatableBandwidth} : m.keys.card = 0 ↔ m = ∅ := by
  rw [Finset.card_eq_zero]
  constructor
  · intro h
    refine Dict.eq_empty fun t => ?_
    rw [← mem_keys, h]
    exact Finset.notMem_empty t
  · rintro rfl
    rfl

theorem updateNodeIOStatusCR_registers (h : Registers oldObj newObj cache) :
    updateNodeIOStatusCR shared oldObj newObj cache =
      .done (some { newObj.status with observedGeneration := newObj.spec.generation }) := by
  have hold : oldStatusAfter shared ∅ newObj.status.allocatableBandwidth = ∅ := by
    simp [oldStatusAfter]
  have hcard : (∅ : AllocatableBandwidth).keys.card ≠ newObj.status.allocatableBandwidth.keys.card :=
    fun hzero => h.2.2 (keys_card_eq_zero.mp hzero.symm)
  simp only [updateNodeIOStatusCR, if_pos h, hold, if_neg hcard, h.2.1, ne_eq, not_true, false_and,
    if_false]

theorem updateNodeIOStatusCR_unregistered (h : ¬ Registers oldObj newObj none) :
    updateNodeIOStatusCR shared oldObj newObj none =
      let old := oldStatusAfter shared oldObj.status.allocatableBandwidth
        newObj.status.allocatableBandwidth
      if old.keys.card = newObj.status.allocatableBandwidth.keys.card then
        updateDisks old newObj.status.allocatableBandwidth none
      else .done none := by
  simp only [updateNodeIOStatusCR, if_neg h, map_none, ite_self]

def withTypes (old new : AllocatableBandwidth) (c : NodeIOStatusStatus) : NodeIOStatusStatus :=
  if old ≠ ∅ ∧ old.keys.card < new.keys.card then addResourcetoCache old new c else c

theorem updateNodeIOStatusCR_some (c : NodeIOStatusStatus) :
    updateNodeIOStatusCR shared oldObj newObj (some c) =
      let old := oldStatusAfter shared oldObj.status.allocatableBandwidth
        newObj.status.allocatableBandwidth
      let c := withTypes oldObj.status.allocatableBandwidth newObj.status.allocatableBandwidth c
      if old.keys.card = newObj.status.allocatableBandwidth.keys.card then
        updateDisks old newObj.status.allocatableBandwidth (some c)
      else .done (some c) := by
  have hreg : ¬ Registers oldObj newObj (some c) := by simp [Registers]
  simp only [updateNodeIOStatusCR, if_neg hreg, withTypes, map_some, ← apply_ite some]

theorem withTypes_copies (old new : AllocatableBandwidth) (c : NodeIOStatusStatus) :
    CopiesFrom old new c (withTypes old new c) := by
  unfold withTypes
  split_ifs
  · exact addResourcetoCache_copies old new c
  · exact .refl _ _ c

/-- An entry that is there keeps its generation and takes over what appears in the resource. -/
theorem pool_updateNodeIOStatusCR
    (h : updateNodeIOStatusCR shared oldObj newObj (some c) = .done r) :
    ∃ c', r = some c' ∧ CopiesFrom oldObj.status.allocatableBandwidth
      newObj.status.allocatableBandwidth c c' := by
  rw [updateNodeIOStatusCR_some] at h
  have htypes := withTypes_copies oldObj.status.allocatableBandwidth
    newObj.status.allocatableBandwidth c
  dsimp only at h
  split_ifs at h
  · obtain ⟨c', rfl, hdisks⟩ := updateDisks_copies h
    exact ⟨c', rfl, htypes.trans hdisks.oldStatusAfter⟩
  · cases h
    exact ⟨_, rfl, htypes⟩

variable {c' : NodeIOStatusStatus}

theorem updateDisks_none :
    updateDisks old new none ≠ .done (some c') := by
  intro h
  unfold updateDisks at h
  split at h
  · simp only [onEntry, Outcome.ofOption_none, Outcome.panic_bind] at h
    split_ifs at h <;> cases h
  · cases h

theorem updateNodeIOStatusCR_none
    (h : updateNodeIOStatusCR shared oldObj newObj none = .done (some c')) :
    c' = { newObj.status with observedGeneration := newObj.spec.generation } := by
  by_cases hreg : Registers oldObj newObj none
  · rw [updateNodeIOStatusCR_registers hreg] at h
    cases h
    rfl
  rw [updateNodeIOStatusCR_unregistered hreg] at h
  dsimp only at h
  split_ifs at h
  · exact absurd h updateDisks_none
  · cases h

end Update

end IOIsolation.Aggr
