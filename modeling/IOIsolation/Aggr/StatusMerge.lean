import IOIsolation.Lib.Nested
import IOIsolation.Aggr.NodeStatus

/-!
# Aggr.StatusMerge

`updateNodeIOStatusCache` as the three nested loops it is, over the report in the order in which it is
gone through, and on the cache of all nodes. A value is written only over one that is registered.

* `mergeTypeLoop_eq` — the loops do what `mergeType` says in one go.
* `merged_iff`       — the report is merged right, except for pools of RDT quantities: the `switch` has no
  case for them.
* `not_alwaysMerged` — such a pool keeps its old value.
-/

namespace IOIsolation.Aggr.StatusMerge

open Lib Finmap Option

/-! ## The loops -/

/-- The pools of one I/O type, in the order in which they are gone through. -/
structure IOBandwidthList where
  ioType : IOType
  deviceBwInfo : AList fun _ : String => AList fun _ : WorkloadQoSType => IOStatus

structure UpdateNodeIOStatusList where
  nodeName : String
  observedGeneration : Int
  ioBw : List IOBandwidthList

def IOBandwidthList.part (bw : IOBandwidthList) : IOBandwidth :=
  ⟨bw.ioType, Nested.toNested bw.deviceBwInfo⟩

def UpdateNodeIOStatusList.request (l : UpdateNodeIOStatusList) : UpdateNodeIOStatusRequest :=
  ⟨l.nodeName, l.observedGeneration, l.ioBw.map IOBandwidthList.part⟩

@[simp] theorem UpdateNodeIOStatusList.request_nodeName (l : UpdateNodeIOStatusList) :
    l.request.nodeName = l.nodeName := rfl

/-- The loop over the classes of a device; one that is not registered is passed over. -/
def mergePools (info : AList fun _ : WorkloadQoSType => IOStatus)
    (pools : Dict WorkloadQoSType IOStatus) : Dict WorkloadQoSType IOStatus :=
  info.entries.foldl (fun pools e => if e.1 ∈ pools then pools.insert e.1 e.2 else pools) pools

/-- The loop over the devices of a type; one that is not registered is passed over. -/
def mergeDeviceLoop (bwInfo : AList fun _ : String => AList fun _ : WorkloadQoSType => IOStatus)
    (devices : Dict String (Dict WorkloadQoSType IOStatus)) :
    Dict String (Dict WorkloadQoSType IOStatus) :=
  bwInfo.entries.foldl (fun devices e => Dict.adjust e.1 (mergePools e.2) devices) devices

def mergeTypeLoop (m : AllocatableBandwidth) (bw : IOBandwidthList) : AllocatableBandwidth :=
  match workloadIOType bw.ioType with
  | some iotype => Dict.adjust iotype (mergeDeviceLoop bw.deviceBwInfo) m
  | none => m

/-- `updateNodeIOStatusCache` on the cache of all nodes; a node without an entry is a nil
dereference. -/
def updateNodeIOStatusCacheLoop (l : UpdateNodeIOStatusList) (cache : Dict String NodeIOStatusStatus) :
    Outcome (Dict String NodeIOStatusStatus) := do
  let status ← .ofOption (cache.lookup l.nodeName)
  return cache.insert l.nodeName
    { observedGeneration := l.observedGeneration
      allocatableBandwidth := l.ioBw.foldl mergeTypeLoop status.allocatableBandwidth }

theorem mergePools_eq (info : AList fun _ : WorkloadQoSType => IOStatus)
    (pools : Dict WorkloadQoSType IOStatus) : mergePools info pools = mergeDevice info.toFinmap pools := by
  have hset : ∀ (m : Dict WorkloadQoSType IOStatus) (qos : WorkloadQoSType) (st : IOStatus),
      (if qos ∈ m then m.insert qos st else m) = Dict.adjust qos (fun _ => st) m := by
    intro m qos st
    unfold Dict.adjust
    cases hl : m.lookup qos with
    | none => rw [if_neg (lookup_eq_none.mp hl)]
    | some old => rw [if_pos (mem_of_lookup_eq_some hl)]
  apply ext_lookup
  intro qos
  simp only [mergePools, hset]
  rw [Dict.lookup_foldl_adjust info.nodupKeys (fun st _ => st), mergeDevice, Dict.lookup_mapVals,
    lookup_toFinmap]
  simp [AList.lookup]

theorem mergeDevice_empty (pools : Dict WorkloadQoSType IOStatus) : mergeDevice ∅ pools = pools := by
  apply ext_lookup
  intro qos
  rw [mergeDevice, Dict.lookup_mapVals]
  simp

theorem mergeDeviceLoop_eq (bwInfo : AList fun _ : String => AList fun _ : WorkloadQoSType => IOStatus) :
    mergeDeviceLoop bwInfo = mergeDevices (Nested.toNested bwInfo) := by
  funext devices
  apply ext_lookup
  intro dev
  rw [mergeDeviceLoop, Dict.lookup_foldl_adjust bwInfo.nodupKeys mergePools, mergeDevices,
    Dict.lookup_mapVals, Nested.toNested, lookup_toFinmap, Dict.lookup_mapEntries, AList.lookup]
  congr 1
  funext pools
  cases bwInfo.entries.dlookup dev with
  | none => exact (mergeDevice_empty pools).symm
  | some info => exact mergePools_eq info pools

theorem mergeTypeLoop_eq (m : AllocatableBandwidth) (bw : IOBandwidthList) :
    mergeTypeLoop m bw = mergeType m bw.part := by
  rw [mergeTypeLoop, mergeType, mergeDeviceLoop_eq]
  rfl

theorem foldl_mergeTypeLoop_eq (parts : List IOBandwidthList) (m : AllocatableBandwidth) :
    parts.foldl mergeTypeLoop m = (parts.map IOBandwidthList.part).foldl mergeType m := by
  rw [List.foldl_map]
  congr 1
  funext m bw
  exact mergeTypeLoop_eq m bw

variable {cache : Dict String NodeIOStatusStatus} {l : UpdateNodeIOStatusList}
  {status : NodeIOStatusStatus} {a : IOType}

/-- On an entry that is there, the loops are the merge of the report. -/
theorem updateNodeIOStatusCacheLoop_eq (h : cache.lookup l.nodeName = some status) :
    updateNodeIOStatusCacheLoop l cache =
      .done (cache.insert l.nodeName (updateNodeIOStatusCache l.request status)) := by
  simp only [updateNodeIOStatusCacheLoop, h, foldl_mergeTypeLoop_eq]
  rfl

/-! ## A report that lists each type once -/

/-- The I/O type a part of a report is about. -/
def reportedType : IOType → Option WorkloadIOType
  | .diskIo => some .blockIo
  | .networkIo => some .networkIo
  | .rdt => some .rdt
  | .rdtQuantity => some .rdtQuantity
  | .all => none

variable {t : WorkloadIOType} {parts : List IOBandwidth}

theorem reportedType_inj {b : IOType} (ha : reportedType a = some t) (hb : reportedType b = some t) :
    a = b := by
  have heq : reportedType a = reportedType b := ha.trans hb.symm
  cases a <;> cases b <;> first | rfl | cases heq

theorem workloadIOType_eq (a : IOType) :
    workloadIOType a = if a = .rdtQuantity then none else reportedType a := by
  cases a <;> rfl

theorem reportedType_of_workloadIOType (h : workloadIOType a = some t) :
    reportedType a = some t := by
  rw [workloadIOType_eq] at h
  split_ifs at h
  exact h

def valueIn (parts : List IOBandwidth) (t : WorkloadIOType) (dev : String) (qos : WorkloadQoSType) :
    Option IOStatus :=
  (parts.find? fun bw => reportedType bw.ioType = some t).bind fun bw =>
    Nested.get bw.deviceBwInfo dev qos

theorem valueIn_cons (bw : IOBandwidth) (parts : List IOBandwidth) (t : WorkloadIOType) (dev : String)
    (qos : WorkloadQoSType) :
    valueIn (bw :: parts) t dev qos = if reportedType bw.ioType = some t then
      Nested.get bw.deviceBwInfo dev qos else valueIn parts t dev qos := by
  unfold valueIn
  split_ifs with h
  · simp [h]
  · simp [h]

theorem valueIn_eq_none (h : ∀ bw ∈ parts, reportedType bw.ioType ≠ some t) (dev : String)
    (qos : WorkloadQoSType) : valueIn parts t dev qos = none := by
  have hfind : (parts.find? fun bw => reportedType bw.ioType = some t) = none := by
    rw [List.find?_eq_none]
    intro bw hbw
    simpa using h bw hbw
  rw [valueIn, hfind]
  rfl

/-- Each part of the report meets the pools of its own type. By induction on the parts. -/
theorem pool_merged (hlisted : (parts.map (·.ioType)).Nodup) (m : AllocatableBandwidth)
    (t : WorkloadIOType) (dev : String) (qos : WorkloadQoSType) :
    pool (parts.foldl mergeType m) t dev qos =
      (pool m t dev qos).map fun old =>
        if t = .rdtQuantity then old else (valueIn parts t dev qos).getD old := by
  induction parts generalizing m with
  | nil => simp [valueIn]
  | cons bw parts ih =>
    rw [List.map_cons, List.nodup_cons] at hlisted
    rw [List.foldl_cons, ih hlisted.2, pool_mergeType, map_map, valueIn_cons]
    congr 1
    funext old
    dsimp only [Function.comp_apply]
    by_cases hq : t = .rdtQuantity
    · have hpart : bw.pool t dev qos = none := by
        rw [IOBandwidth.pool, hq, if_neg]
        cases bw.ioType <;> simp [workloadIOType]
      rw [if_pos hq, if_pos hq, hpart, getD_none]
    rw [if_neg hq, if_neg hq]
    by_cases ht : reportedType bw.ioType = some t
    · have hrest : valueIn parts t dev qos = none := by
        refine valueIn_eq_none (fun x hx hxt => hlisted.1 ?_) dev qos
        exact List.mem_map.mpr ⟨x, hx, reportedType_inj hxt ht⟩
      have hne : bw.ioType ≠ .rdtQuantity := by
        intro heq
        rw [heq, reportedType, some.injEq] at ht
        exact hq ht.symm
      have hpart : bw.pool t dev qos = Nested.get bw.deviceBwInfo dev qos := by
        rw [IOBandwidth.pool, workloadIOType_eq, if_neg hne, if_pos ht]
        rfl
      rw [hrest, getD_none, if_pos ht, hpart]
    · have hpart : bw.pool t dev qos = none := by
        exact if_neg fun hw => ht (reportedType_of_workloadIOType hw)
      rw [if_neg ht, hpart, getD_none]

/-! ## Effect and frame -/

def poolIn (cache : Dict String NodeIOStatusStatus) (node : String) (t : WorkloadIOType)
    (dev : String) (qos : WorkloadQoSType) : Option IOStatus :=
  (cache.lookup node).bind fun status => pool status.allocatableBandwidth t dev qos

/-- Registered pools have the reported values, and nothing else has changed. -/
structure Merged (req : UpdateNodeIOStatusRequest) (cache cache' : Dict String NodeIOStatusStatus) :
    Prop where
  effect : ∀ t dev qos v, (poolIn cache req.nodeName t dev qos).isSome →
    valueIn req.ioBw t dev qos = some v → poolIn cache' req.nodeName t dev qos = some v
  frame : ∀ t dev qos, valueIn req.ioBw t dev qos = none →
    poolIn cache' req.nodeName t dev qos = poolIn cache req.nodeName t dev qos
  registered : ∀ t dev qos, (poolIn cache' req.nodeName t dev qos).isSome =
    (poolIn cache req.nodeName t dev qos).isSome
  others : ∀ node, node ≠ req.nodeName → cache'.lookup node = cache.lookup node

/-- Reported RDT quantities are the registered ones. -/
def QuantityKept (req : UpdateNodeIOStatusRequest) (cache : Dict String NodeIOStatusStatus) : Prop :=
  ∀ dev qos old v, poolIn cache req.nodeName .rdtQuantity dev qos = some old →
    valueIn req.ioBw .rdtQuantity dev qos = some v → old = v

/-- The same report, gone through in another order. -/
structure UpdateNodeIOStatusList.Reorders (l' l : UpdateNodeIOStatusList) : Prop where
  nodeName : l'.nodeName = l.nodeName
  observedGeneration : l'.observedGeneration = l.observedGeneration
  ioBw : (l'.ioBw.map IOBandwidthList.part).Perm (l.ioBw.map IOBandwidthList.part)

theorem mergeType_comm {a b : IOBandwidth} (h : a.ioType ≠ b.ioType) (m : AllocatableBandwidth) :
    mergeType (mergeType m a) b = mergeType (mergeType m b) a := by
  unfold mergeType
  cases ha : workloadIOType a.ioType with
  | none => rfl
  | some s =>
    cases hb : workloadIOType b.ioType with
    | none => rfl
    | some t =>
      have hne : s ≠ t := by
        rintro rfl
        exact h (reportedType_inj (reportedType_of_workloadIOType ha)
          (reportedType_of_workloadIOType hb))
      apply ext_lookup
      intro x
      simp only [Dict.lookup_adjust]
      by_cases hs : x = s
      · subst hs
        simp [hne]
      by_cases ht : x = t
      · subst ht
        simp [hs]
      · simp [hs, ht]

theorem foldl_mergeType_perm {parts' : List IOBandwidth} (hperm : parts'.Perm parts)
    (hlisted : (parts.map (·.ioType)).Nodup) (m : AllocatableBandwidth) :
    parts'.foldl mergeType m = parts.foldl mergeType m := by
  have hlisted' : (parts'.map (·.ioType)).Nodup := (hperm.map _).nodup_iff.mpr hlisted
  refine hperm.foldl_eq' (fun a ha b hb m => ?_) m
  by_cases hab : a = b
  · rw [hab]
  · refine mergeType_comm (fun heq => hab ?_) m
    exact List.inj_on_of_nodup_map hlisted' ha hb heq

theorem poolIn_loop (hnode : cache.lookup l.nodeName = some status)
    (hlisted : (l.request.ioBw.map (·.ioType)).Nodup) (t : WorkloadIOType) (dev : String)
    (qos : WorkloadQoSType) :
    poolIn (cache.insert l.nodeName (updateNodeIOStatusCache l.request status)) l.nodeName t dev qos =
      (poolIn cache l.nodeName t dev qos).map fun old =>
        if t = .rdtQuantity then old else (valueIn l.request.ioBw t dev qos).getD old := by
  rw [poolIn, lookup_insert, bind_some, updateNodeIOStatusCache, pool_merged hlisted,
    poolIn, hnode, bind_some]

/-- For a node with an entry and a report that has each type once, the report is merged right exactly if
it has no new value for RDT quantities; and its order does not matter. -/
theorem merged_iff {l : UpdateNodeIOStatusList} {cache : Dict String NodeIOStatusStatus}
    (hnode : l.nodeName ∈ cache) (hlisted : (l.ioBw.map (·.ioType)).Nodup) :
    ∃ cache', updateNodeIOStatusCacheLoop l cache = .done cache' ∧
      (Merged l.request cache cache' ↔ QuantityKept l.request cache) ∧
      ∀ l', l'.Reorders l → updateNodeIOStatusCacheLoop l' cache = .done cache' := by
  obtain ⟨status, hstatus⟩ := mem_iff.mp hnode
  have htypes : (l.request.ioBw.map (·.ioType)).Nodup := by
    have hmap : l.request.ioBw.map (·.ioType) = l.ioBw.map (·.ioType) := by
      rw [UpdateNodeIOStatusList.request, List.map_map]
      rfl
    rw [hmap]
    exact hlisted
  refine ⟨_, updateNodeIOStatusCacheLoop_eq hstatus, ⟨?_, ?_⟩, ?_⟩
  · intro h dev qos old v hold hv
    have hnew := h.effect .rdtQuantity dev qos v (by rw [hold]; rfl) hv
    have hpool := poolIn_loop hstatus htypes .rdtQuantity dev qos
    rw [UpdateNodeIOStatusList.request_nodeName] at hold hnew
    rw [hold, hnew, map_some, if_pos rfl, some.injEq] at hpool
    exact hpool.symm
  · intro hkept
    have hpool := poolIn_loop hstatus htypes
    refine ⟨fun t dev qos v hreg hv => ?_, fun t dev qos hv => ?_, fun t dev qos => ?_,
      fun node hne => lookup_insert_of_ne _ hne⟩
    · obtain ⟨old, hold⟩ := isSome_iff_exists.mp hreg
      rw [UpdateNodeIOStatusList.request_nodeName] at hold ⊢
      rw [hpool, hold, hv, map_some, getD_some]
      by_cases hq : t = .rdtQuantity
      · subst hq
        rw [if_pos rfl, hkept dev qos old v hold hv]
      · rw [if_neg hq]
    · rw [UpdateNodeIOStatusList.request_nodeName, hpool, hv]
      simp
    · rw [UpdateNodeIOStatusList.request_nodeName, hpool, isSome_map]
  · intro l' h
    have hstatus' : cache.lookup l'.nodeName = some status := h.nodeName ▸ hstatus
    have hfold : l'.request.ioBw.foldl mergeType status.allocatableBandwidth =
        l.request.ioBw.foldl mergeType status.allocatableBandwidth :=
      foldl_mergeType_perm h.ioBw htypes _
    have hgen : l'.request.observedGeneration = l.request.observedGeneration := h.observedGeneration
    rw [updateNodeIOStatusCacheLoop_eq hstatus', h.nodeName, updateNodeIOStatusCache, hfold, hgen,
      updateNodeIOStatusCache]

def diskAndCardList : UpdateNodeIOStatusList where
  nodeName := "n"
  observedGeneration := 1
  ioBw := [⟨.diskIo, AList.singleton "sda" (AList.singleton .ga ⟨120, 80, 80, 0⟩)⟩,
    ⟨.networkIo, AList.singleton "eth0" (AList.singleton .ga ⟨200, 100, 100, 0⟩)⟩]

def registeredCache : Dict String NodeIOStatusStatus :=
  Finmap.singleton "n" ⟨0, (Finmap.singleton .blockIo (Finmap.singleton "sda"
    (Finmap.singleton .ga ⟨0, 0, 0, 0⟩)) : AllocatableBandwidth).insert .rdtQuantity
      (Finmap.singleton "class" (Finmap.singleton .ga ⟨0, 0, 0, 0⟩))⟩

theorem merged_iff_diskAndCard :
    ∃ cache', updateNodeIOStatusCacheLoop diskAndCardList registeredCache = .done cache' ∧
      Merged diskAndCardList.request registeredCache cache' ∧
      ∀ l', l'.Reorders diskAndCardList → updateNodeIOStatusCacheLoop l' registeredCache =
        .done cache' := by
  obtain ⟨cache', hloop, hiff, horder⟩ := @merged_iff diskAndCardList registeredCache
    ((mem_singleton _ _ _).mpr rfl) (by decide)
  refine ⟨cache', hloop, hiff.mpr fun dev qos old v _ hv => ?_, horder⟩
  cases hv

def AlwaysMerged : Prop :=
  ∀ (l : UpdateNodeIOStatusList) (cache cache' : Dict String NodeIOStatusStatus),
    l.nodeName ∈ cache → (l.ioBw.map (·.ioType)).Nodup →
      updateNodeIOStatusCacheLoop l cache = .done cache' → Merged l.request cache cache'

/-- The score of a class of RDT quantities, as the agent reports it. -/
def scoreList : UpdateNodeIOStatusList where
  nodeName := "n"
  observedGeneration := 1
  ioBw := [⟨.rdtQuantity, AList.singleton "class" (AList.singleton .ga ⟨0, 0, 0, 5⟩)⟩]

theorem not_alwaysMerged : ¬ AlwaysMerged := by
  intro h
  obtain ⟨cache', hloop, hpool⟩ :
      ∃ c ∈ (updateNodeIOStatusCacheLoop scoreList registeredCache).toOption,
        poolIn c "n" .rdtQuantity "class" .ga = some ⟨0, 0, 0, 0⟩ := by
    decide +kernel
  have hmerged := h scoreList registeredCache cache' ((mem_singleton _ _ _).mpr rfl) (by decide)
    (Outcome.toOption_eq_some.mp hloop)
  have hnew := hmerged.effect .rdtQuantity "class" .ga ⟨0, 0, 0, 5⟩ (by decide +kernel)
    (by decide +kernel)
  rw [UpdateNodeIOStatusList.request_nodeName, scoreList, hpool] at hnew
  exact absurd hnew (by decide +kernel)

end IOIsolation.Aggr.StatusMerge
