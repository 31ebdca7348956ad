import IOIsolation.Agent.Allocatable
import IOIsolation.Agent.DiskPods
import IOIsolation.Aggr.AnnotationRoundTrip
import IOIsolation.Sched.BlockIo

/-!
# Agent.SharedBandwidth

The guaranteed bandwidth of a disk is computed twice. The scheduler takes the reserved pods off the
pool in `InitNodeStatus`, and rounds the pool down; the agent takes in a list of the same pods, sorts
them into three groups and reports what `calDiskAllocatable` leaves. Both come to the same up to the
rounding.

* `processPods_disk` — the event of the disk engine is filled from the disk requests of the list.
* `unlisted_run` — runtime events alone leave an engine as a list expects it.
* `Delivers.counted_eq` — the scheduler and the agent take off the same for each pod.
* `guaranteed_agree` — the two bandwidths.
-/

namespace IOIsolation.Agent

open Lib Finmap Nested Registration Dict Option
open Aggr (deviceKey)
open Sched (noQuantity computed calculateReservedBw)

/-! ## The event of the disk engine -/

def Complete (r : IOResourceRequest) : Prop :=
  ∃ dev request limit rawRequest rawLimit,
    r.devRequest = some ⟨dev, some request, some limit, some rawRequest, some rawLimit⟩

def diskEntry (uid podName : String) (r : IOResourceRequest) :
    Option (String × String × PodRunInfo) :=
  match r.ioType, r.devRequest with
  | .diskIo, some ⟨dev, some request, some limit, some rawRequest, some rawLimit⟩ =>
    some (dev, uid,
      { request := workload request
        limit := workload limit
        rawRequest := workload rawRequest
        rawLimit := workload rawLimit
        workloadType := classify r.workloadType (workload request) (workload limit)
        podName := podName })
  | _, _ => none

variable {r r' : IOResourceRequest} {rs : List IOResourceRequest} {dev : String}

theorem processRequest_disk (uid podName : String) (u : Updates) (h : Complete r) :
    ∃ u', processRequest uid podName u r = .done u' ∧
      u'.disk = fill (diskEntry uid podName r).toList u.disk := by
  obtain ⟨dev, request, limit, rawRequest, rawLimit, hd⟩ := h
  obtain ⟨t, w, d⟩ := r
  subst hd
  cases t <;> exact ⟨_, rfl, rfl⟩

theorem processRequests_disk (uid podName : String) (h : ∀ r ∈ rs, Complete r) (u : Updates) :
    ∃ u', rs.foldlM (processRequest uid podName) u = .done u' ∧
      u'.disk = fill (rs.filterMap (diskEntry uid podName)) u.disk := by
  induction rs generalizing u with
  | nil => exact ⟨u, rfl, rfl⟩
  | cons r rs ih =>
    obtain ⟨hr, hrs⟩ := List.forall_mem_cons.mp h
    obtain ⟨u₁, hone, hdisk₁⟩ := processRequest_disk uid podName u hr
    obtain ⟨u₂, hrest, hdisk₂⟩ := ih hrs u₁
    refine ⟨u₂, by rw [List.foldlM_cons, hone]; exact hrest, ?_⟩
    rw [hdisk₂, hdisk₁, ← fill_append]
    congr 1
    cases hentry : diskEntry uid podName r with
    | none => rw [List.filterMap_cons_none hentry]; rfl
    | some x => rw [List.filterMap_cons_some hentry]; rfl

def podEntries (p : Σ _ : String, Option PodRequest) : List (String × String × PodRunInfo) :=
  match p.2 with
  | some pr => pr.request.filterMap (diskEntry p.1 pr.podName)
  | none => []

def Carried (p : Σ _ : String, Option PodRequest) : Prop :=
  ∃ pr, p.2 = some pr ∧ ∀ r ∈ pr.request, Complete r

variable {table : Table} {t : IOType} {d : DeviceRequirement} {e : PodEngine} {l : PodEventList}

/-- A pod that is new to the table; without requests it puts nothing into the event. -/
theorem processPod_disk {p : Σ _ : String, Option PodRequest} (h : Carried p)
    (hnew : table.lookup p.1 = none) (u : Updates) :
    ∃ table' u', processPod p.1 p.2 table u = .done (table', u') ∧
      (∀ uid, uid ≠ p.1 → table'.lookup uid = table.lookup uid) ∧
      u'.disk = fill (podEntries p) u.disk := by
  obtain ⟨uid, o⟩ := p
  obtain ⟨pr, rfl, hcomplete⟩ := h
  by_cases hne : pr.request = []
  · refine ⟨table, u, ?_, fun _ _ => rfl, ?_⟩
    · simp [processPod, details, hne, hnew]
    · simp [podEntries, hne, fill]
  · obtain ⟨u', hfold, hdisk⟩ := processRequests_disk uid pr.podName hcomplete u
    refine ⟨table.insert uid ⟨pr, hne⟩, u', ?_, fun x hx => lookup_insert_of_ne _ hx, hdisk⟩
    simp [processPod, details, hne, hfold]

theorem processPods_disk {ps : List (Σ _ : String, Option PodRequest)}
    (hnodup : (ps.map Sigma.fst).Nodup) (h : ∀ p ∈ ps, Carried p)
    (hnew : ∀ p ∈ ps, table.lookup p.1 = none) (u : Updates) :
    ∃ table' u', processPods ps table u = .done (table', u') ∧
      u'.disk = fill (ps.flatMap podEntries) u.disk := by
  induction ps generalizing table u with
  | nil => exact ⟨table, u, rfl, rfl⟩
  | cons p ps ih =>
    rw [List.map_cons, List.nodup_cons] at hnodup
    rw [List.forall_mem_cons] at h hnew
    obtain ⟨table₁, u₁, hone, hkept, hdisk₁⟩ := processPod_disk h.1 hnew.1 u
    have hnew₁ : ∀ q ∈ ps, table₁.lookup q.1 = none := by
      intro q hq
      have hne : q.1 ≠ p.1 := fun heq => hnodup.1 (heq ▸ List.mem_map_of_mem hq)
      rw [hkept q.1 hne]
      exact hnew.2 q hq
    obtain ⟨table₂, u₂, hrest, hdisk₂⟩ := ih hnodup.2 h.2 hnew₁ u₁
    refine ⟨table₂, u₂, ?_, ?_⟩
    · exact Outcome.bind_eq_done.mpr ⟨_, hone, hrest⟩
    · rw [hdisk₂, hdisk₁, List.flatMap_cons, fill_append]

/-! ## A list of the reserved pods -/

/-- The request `r'` of a list is the reserved request `r`, with zeros for bandwidths that are absent.
It has all quantities; its limits may be any. -/
structure Carries (r r' : IOResourceRequest) : Prop where
  ioType : r'.ioType = r.ioType
  workloadType : r'.workloadType = r.workloadType
  device : ∃ d request limit rawRequest rawLimit, r.devRequest = some d ∧
    r'.devRequest = some ⟨d.devName, some request, some limit, some rawRequest, some rawLimit⟩ ∧
    request.inbps = (d.request.getD noQuantity).inbps ∧
    request.outbps = (d.request.getD noQuantity).outbps

/-- The reserved pods of a node. A pod has a name, and one request for each device and type. -/
structure ReservedPods where
  pods : Dict String PodRequest
  named : ∀ uid r, pods.lookup uid = some r → r.podName ≠ ""
  distinct : ∀ uid r, pods.lookup uid = some r → (r.request.map deviceKey).Nodup

/-- The list has exactly the reserved pods, with their requests in any order. -/
structure Delivers (P : ReservedPods) (resPods : AList fun _ : String => Option PodRequest) :
    Prop where
  listed : ∀ uid, uid ∈ resPods ↔ uid ∈ P.pods
  requests : ∀ uid r, P.pods.lookup uid = some r → ∃ pr carry,
    resPods.lookup uid = some (some pr) ∧ pr.podName = r.podName ∧
    (∀ x ∈ r.request, Carries x (carry x)) ∧ pr.request.Perm (r.request.map carry)

theorem carries_readBack (h : r.devRequest.isSome) : Carries r (Aggr.readBack r) := by
  obtain ⟨d, hd⟩ := isSome_iff_exists.mp h
  have hd' : (Aggr.readBack r).devRequest = some ⟨d.devName,
      some (Aggr.bandwidthsOf (d.request.getD noQuantity)),
      some (Aggr.bandwidthsOf (d.limit.getD noQuantity)),
      some (d.rawRequest.getD noQuantity), some (d.rawLimit.getD noQuantity)⟩ := by
    simp only [Aggr.readBack, hd, map_some]
  exact ⟨rfl, rfl, d, _, _, _, _, hd, hd', rfl, rfl⟩

theorem Carries.complete (h : Carries r r') : Complete r' := by
  obtain ⟨d, request, limit, rawRequest, rawLimit, -, hd', -⟩ := h.device
  exact ⟨_, _, _, _, _, hd'⟩

theorem Carries.deviceKey_eq (h : Carries r r') : deviceKey r' = deviceKey r := by
  obtain ⟨d, request, limit, rawRequest, rawLimit, hd, hd', -⟩ := h.device
  simp [deviceKey, h.ioType, hd, hd']

/-- The bandwidth of a pod that is not best effort. -/
def countedBw (o : Option PodRunInfo) : ℚ × ℚ :=
  match o with
  | some info => if info.workloadType = .beIndex then 0 else (info.request.inBps, info.request.outBps)
  | none => 0

variable {info : PodRunInfo}

theorem diskEntry_some {uid podName uid' : String}
    (h : diskEntry uid podName r = some (dev, uid', info)) :
    deviceKey r = (.diskIo, some dev) ∧ uid' = uid ∧ info.podName = podName ∧
      info.workloadType ≠ .groupIndex := by
  obtain ⟨t, w, d⟩ := r
  unfold diskEntry at h
  split at h
  · rename_i ht hd
    subst ht hd
    cases h
    refine ⟨rfl, rfl, rfl, ?_⟩
    dsimp only [classify]
    split_ifs <;> simp
  · cases h

theorem Carries.diskEntry_eq (h : Carries r r') (uid podName : String)
    (hkey : deviceKey r = (.diskIo, some dev)) :
    ∃ d info, r.devRequest = some d ∧ diskEntry uid podName r' = some (dev, uid, info) ∧
      countedBw (some info) = if r.workloadType = .beIndex then 0
        else ((d.request.getD noQuantity).inbps, (d.request.getD noQuantity).outbps) := by
  obtain ⟨d, request, limit, rawRequest, rawLimit, hd, hd', hin, hout⟩ := h.device
  simp only [deviceKey, hd, map_some, Prod.mk.injEq, some.injEq] at hkey
  obtain ⟨ht, rfl⟩ := hkey
  have ht' : r'.ioType = .diskIo := h.ioType.trans ht
  have hentry : diskEntry uid podName r' = some (d.devName, uid, ⟨workload request, workload limit,
      workload rawRequest, workload rawLimit,
      classify r'.workloadType (workload request) (workload limit), podName⟩) := by
    simp only [diskEntry, ht', hd']
  refine ⟨d, _, hd, hentry, ?_⟩
  rw [← hin, ← hout, ← h.workloadType]
  by_cases hbe : r'.workloadType = .beIndex
  · simp [countedBw, classify, hbe]
  have hclass : classify r'.workloadType (workload request) (workload limit) ≠ .beIndex := by
    simp only [classify, if_pos hbe]
    split_ifs <;> simp
  rw [countedBw, if_neg hclass, if_neg hbe]
  rfl

/-! ## What the scheduler takes off -/

theorem calculateReservedBw_none (h : ∀ r ∈ rs, deviceKey r ≠ (t, some dev)) (i o : ℚ) :
    calculateReservedBw t dev rs i o = (i, o, false) := by
  induction rs generalizing i o with
  | nil => rfl
  | cons r rs ih =>
    obtain ⟨hr, hrs⟩ := List.forall_mem_cons.mp h
    rw [calculateReservedBw]
    by_cases ht : r.ioType = t
    · cases hd : r.devRequest with
      | none => simp [ht, ih hrs]
      | some d =>
        have hdev : d.devName ≠ dev := fun heq => hr (by simp [deviceKey, ht, hd, heq])
        simp [ht, hdev, ih hrs]
    · simp [ht, ih hrs]

theorem calculateReservedBw_mem (hkeys : (rs.map deviceKey).Nodup) (hr : r ∈ rs)
    (hkey : deviceKey r = (t, some dev)) (hd : r.devRequest = some d) (i o : ℚ) :
    calculateReservedBw t dev rs i o =
      if r.workloadType = .beIndex then (i, o, true)
      else (i + (d.request.getD noQuantity).inbps, o + (d.request.getD noQuantity).outbps, false) := by
  induction rs generalizing i o with
  | nil => cases hr
  | cons x rs ih =>
    rw [List.map_cons, List.nodup_cons] at hkeys
    by_cases hx : deviceKey x = (t, some dev)
    · -- no later request is for the device
      have hrest : ∀ y ∈ rs, deviceKey y ≠ (t, some dev) := fun y hy heq =>
        hkeys.1 (List.mem_map.mpr ⟨y, hy, heq.trans hx.symm⟩)
      have hrx : r = x := (List.mem_cons.mp hr).resolve_right fun hmem => hrest r hmem hkey
      subst hrx
      simp only [deviceKey, hd, map_some, Prod.mk.injEq, some.injEq] at hx
      rw [calculateReservedBw]
      by_cases hbe : r.workloadType = .beIndex
      · simp [hx.1, hx.2, hd, hbe]
      cases hq : d.request with
      | none => simp [hx.1, hx.2, hd, hbe, hq, noQuantity, calculateReservedBw_none hrest]
      | some q => simp [hx.1, hx.2, hd, hbe, hq, calculateReservedBw_none hrest]
    · have hmem : r ∈ rs := (List.mem_cons.mp hr).resolve_left fun heq => hx (heq ▸ hkey)
      have hskip : calculateReservedBw t dev (x :: rs) i o = calculateReservedBw t dev rs i o := by
        rw [calculateReservedBw]
        by_cases ht : x.ioType = t
        · cases hxd : x.devRequest with
          | none => simp [ht]
          | some e =>
            have hdev : e.devName ≠ dev := fun heq => hx (by simp [deviceKey, ht, hxd, heq])
            simp [ht, hdev]
        · simp [ht]
      rw [hskip]
      exact ih hkeys.2 hmem i o

/-- The bandwidth `InitNodeStatus` takes off for a pod. -/
def reservedBw (dev : String) (r : PodRequest) : ℚ × ℚ :=
  ((computed .diskIo dev r).1, (computed .diskIo dev r).2.1)

theorem reservedBw_none {r : PodRequest} (h : ∀ x ∈ r.request, deviceKey x ≠ (.diskIo, some dev)) :
    reservedBw dev r = 0 := by
  simp only [reservedBw, computed, calculateReservedBw_none h]
  rfl

theorem reservedBw_mem {r : PodRequest} (hkeys : (r.request.map deviceKey).Nodup)
    {x : IOResourceRequest} (hx : x ∈ r.request) (hkey : deviceKey x = (.diskIo, some dev))
    (hd : x.devRequest = some d) :
    reservedBw dev r = if x.workloadType = .beIndex then 0
      else ((d.request.getD noQuantity).inbps, (d.request.getD noQuantity).outbps) := by
  simp only [reservedBw, computed, calculateReservedBw_mem hkeys hx hkey hd]
  split_ifs
  · rfl
  · simp

/-! ## The same for each pod -/

section Deliver

variable {P : ReservedPods} {resPods : AList fun _ : String => Option PodRequest}
  (hlist : Delivers P resPods)

include hlist

variable {uid : String}

theorem Delivers.lookup {o : Option PodRequest} (h : resPods.lookup uid = some o) :
    ∃ pr r carry, o = some pr ∧ P.pods.lookup uid = some r ∧ pr.podName = r.podName ∧
      (∀ x ∈ r.request, Carries x (carry x)) ∧ pr.request.Perm (r.request.map carry) := by
  have hmem : uid ∈ resPods := AList.lookup_isSome.mp (by rw [h]; rfl)
  obtain ⟨r, hr⟩ := isSome_iff_exists.mp
    (lookup_isSome.mpr ((hlist.listed uid).mp hmem))
  obtain ⟨pr, carry, hpr, hrest⟩ := hlist.requests uid r hr
  rw [h, some.injEq] at hpr
  exact ⟨pr, r, carry, hpr, hr, hrest⟩

theorem Delivers.carried : ∀ p ∈ resPods.entries, Carried p := by
  rintro ⟨uid, o⟩ hp
  obtain ⟨pr, r, carry, rfl, -, -, hcarry, hperm⟩ := hlist.lookup (AList.mem_lookup_iff.mpr hp)
  refine ⟨pr, rfl, fun x hx => ?_⟩
  obtain ⟨y, hy, rfl⟩ := List.mem_map.mp (hperm.mem_iff.mp hx)
  exact (hcarry y hy).complete

theorem Delivers.keys_nodup {pr : PodRequest} (h : resPods.lookup uid = some (some pr)) :
    (pr.request.map deviceKey).Nodup := by
  obtain ⟨pr', r, carry, heq, hr, -, hcarry, hperm⟩ := hlist.lookup h
  cases heq
  have hmap : r.request.map (deviceKey ∘ carry) = r.request.map deviceKey :=
    List.map_congr_left fun x hx => (hcarry x hx).deviceKey_eq
  rw [(hperm.map deviceKey).nodup_iff, List.map_map, hmap]
  exact P.distinct uid r hr

theorem Delivers.entries_nodup :
    ((resPods.entries.flatMap podEntries).map fun e => (e.1, e.2.1)).Nodup := by
  rw [List.map_flatMap, List.nodup_flatMap]
  have huid : ∀ p, ∀ e ∈ podEntries p, e.2.1 = p.1 := by
    rintro ⟨uid, o⟩ ⟨dev, uid', info⟩ he
    cases o with
    | none => cases he
    | some pr =>
      obtain ⟨x, -, hx⟩ := List.mem_filterMap.mp he
      exact (diskEntry_some hx).2.1
  constructor
  · rintro ⟨uid, o⟩ hp
    have hl := AList.mem_lookup_iff.mpr hp
    cases o with
    | none => exact List.nodup_nil
    | some pr =>
      have hkeys := hlist.keys_nodup hl
      rw [List.Nodup, List.pairwise_map] at hkeys
      rw [podEntries, List.Nodup, List.pairwise_map, List.pairwise_filterMap]
      refine hkeys.imp ?_
      rintro x y hne ⟨dev, u, info⟩ hx ⟨dev', u', info'⟩ hy heq
      cases heq
      exact hne ((diskEntry_some hx).1.trans (diskEntry_some hy).1.symm)
  · refine (List.nodupKeys_iff_pairwise.mp resPods.nodupKeys).imp ?_
    intro p q hne k hp hq
    obtain ⟨e, he, rfl⟩ := List.mem_map.mp hp
    obtain ⟨f, hf, heq⟩ := List.mem_map.mp hq
    exact hne ((huid p e he).symm.trans ((congrArg Prod.snd heq).symm.trans (huid q f hf)))

theorem Delivers.get_iff :
    get (fill (resPods.entries.flatMap podEntries) ∅) dev uid = some info ↔
      ∃ pr, resPods.lookup uid = some (some pr) ∧
        ∃ x ∈ pr.request, diskEntry uid pr.podName x = some (dev, uid, info) := by
  rw [get_fill hlist.entries_nodup]
  have hempty : get (∅ : PodEvents) dev uid = none := rfl
  rw [hempty]
  simp only [reduceCtorEq, and_false, or_false, List.mem_flatMap]
  constructor
  · rintro ⟨⟨uid', o⟩, hp, he⟩
    cases o with
    | none => cases he
    | some pr =>
      obtain ⟨x, hx, hentry⟩ := List.mem_filterMap.mp he
      obtain rfl := (diskEntry_some hentry).2.1
      exact ⟨pr, AList.mem_lookup_iff.mpr hp, x, hx, hentry⟩
  · rintro ⟨pr, hpr, x, hx, hentry⟩
    exact ⟨⟨uid, some pr⟩, AList.mem_lookup_iff.mp hpr, List.mem_filterMap.mpr ⟨x, hx, hentry⟩⟩

theorem Delivers.counted_eq (dev uid : String) :
    countedBw (get (fill (resPods.entries.flatMap podEntries) ∅) dev uid) =
      (P.pods.lookup uid).elim 0 (reservedBw dev) := by
  cases hr : P.pods.lookup uid with
  | none =>
    have hnone : get (fill (resPods.entries.flatMap podEntries) ∅) dev uid = none := by
      by_contra hsome
      obtain ⟨info, hinfo⟩ := ne_none_iff_exists'.mp hsome
      obtain ⟨pr, hpr, -⟩ := hlist.get_iff.mp hinfo
      obtain ⟨_, r, _, _, hr', -⟩ := hlist.lookup hpr
      rw [hr] at hr'
      cases hr'
    rw [hnone]
    rfl
  | some r =>
    obtain ⟨pr, carry, hpr, -, hcarry, hperm⟩ := hlist.requests uid r hr
    rw [elim_some]
    by_cases hon : ∃ x ∈ r.request, deviceKey x = (.diskIo, some dev)
    · obtain ⟨x, hx, hkey⟩ := hon
      obtain ⟨d, info, hd, hentry, hcount⟩ := (hcarry x hx).diskEntry_eq uid pr.podName hkey
      have hget := hlist.get_iff.mpr
        ⟨pr, hpr, carry x, hperm.mem_iff.mpr (List.mem_map_of_mem hx), hentry⟩
      rw [hget, hcount, reservedBw_mem (P.distinct uid r hr) hx hkey hd]
    have hnone : get (fill (resPods.entries.flatMap podEntries) ∅) dev uid =
        none := by
      by_contra hsome
      obtain ⟨info, hinfo⟩ := ne_none_iff_exists'.mp hsome
      obtain ⟨pr', hpr', y, hy, hentry⟩ := hlist.get_iff.mp hinfo
      rw [hpr] at hpr'
      cases hpr'
      obtain ⟨x, hx, rfl⟩ := List.mem_map.mp (hperm.mem_iff.mp hy)
      exact hon ⟨x, hx, (hcarry x hx).deviceKey_eq ▸ (diskEntry_some hentry).1⟩
    rw [hnone, reservedBw_none fun x hx hkey => hon ⟨x, hx, hkey⟩]
    rfl

end Deliver

/-! ## An engine that no list has reached -/

namespace Registration

def Unlisted (e : PodEngine) : Prop :=
  ∀ x r, e.podRegInfos.lookup x = some r → r.crOperation = ∅ ∧ r.devIds = []

def Event.IsNri : Event → Prop
  | .nri _ _ _ => True
  | .podList _ _ => False

instance : ∀ ev : Event, Decidable ev.IsNri
  | .nri _ _ _ => isTrue trivial
  | .podList _ _ => isFalse id

variable {ev : Event} {s' : State} {devices nodeIps : List String}
  {majorMinors : Dict String String} {whitelist : Finset String}

theorem unlisted_registerPod {e' : PodEngine} {order : List String} (hu : Unlisted e)
    (h : registerPod .disk order e = some e') : Unlisted e' := by
  intro x r hr
  rw [registerPod_lookup h] at hr
  obtain ⟨r₀, hr₀, hsettle⟩ := bind_eq_some_iff.mp hr
  obtain ⟨hcr, hdev⟩ := hu x r₀ hr₀
  have hready : ¬ r₀.Ready .disk := fun hready => hready.2 hdev
  rw [PodRegInfo.settle, if_neg fun hact => hready hact.1, some.injEq] at hsettle
  exact hsettle ▸ ⟨hcr, hdev⟩

variable {s : State}

theorem unlisted_step (h : step .disk s ev = some s') (hnri : ev.IsNri) (hu : Unlisted s.engine) :
    Unlisted s'.engine := by
  cases ev with
  | podList l order => cases hnri
  | nri podId info order =>
    obtain ⟨e, he, rfl⟩ := map_eq_some_iff.mp h
    unfold processNriData at he
    split_ifs at he with hwhite
    · exact unlisted_registerPod (e := { s.engine with calls := [] }) hu he
    refine unlisted_registerPod ?_ he
    intro x r hr
    rw [lookup_insert_ite] at hr
    split_ifs at hr with hx
    · cases hr
      obtain ⟨-, -, -, hcr, hdev, -⟩ := nriEntry_eq .disk info (s.engine.podRegInfos.lookup podId)
      refine ⟨hcr.trans ?_, hdev.trans ?_⟩
      · cases hl : s.engine.podRegInfos.lookup podId with
        | none => rfl
        | some r₀ => exact (hu podId r₀ hl).1
      · cases hl : s.engine.podRegInfos.lookup podId with
        | none => rfl
        | some r₀ => exact (hu podId r₀ hl).2
    · exact hu x r hr

theorem nri_keys (h : step .disk s ev = some s') (hnri : ev.IsNri) :
    s'.engine.wgDevices.keys = s.engine.wgDevices.keys := by
  cases ev with
  | podList l order => cases hnri
  | nri podId info order =>
    obtain ⟨e, he, rfl⟩ := map_eq_some_iff.mp h
    unfold processNriData at he
    split_ifs at he with hwhite
    · exact (registerPod_frame he).2
    · exact (registerPod_frame he).2

theorem mem_fresh (h : dev ∈ devices) :
    dev ∈ (PodEngine.fresh whitelist devices majorMinors nodeIps).wgDevices := by
  have hfold : ∀ (devices : List String) (m : Dict String WorkloadGroups),
      dev ∈ devices ∨ dev ∈ m →
        dev ∈ devices.foldl (fun wgs d => wgs.insert d fun _ => .empty) m := by
    intro devices
    induction devices with
    | nil => intro m hm; exact hm.resolve_left (List.not_mem_nil)
    | cons d rest ih =>
      intro m hm
      refine ih _ ?_
      rcases hm with hm | hm
      · rcases List.mem_cons.mp hm with rfl | hm
        · exact .inr (mem_insert.mpr (.inl rfl))
        · exact .inl hm
      · exact .inr (mem_insert.mpr (.inr hm))
  exact hfold devices ∅ (.inl h)

/-- After runtime events alone the engine has its disks, empty tables and no trace of a list. -/
theorem unlisted_run {evs : List Event} (hnri : ∀ ev ∈ evs, ev.IsNri)
    (hrun : run (step .disk) (start (.fresh whitelist devices majorMinors nodeIps)) evs = some s) :
    Unlisted s.engine ∧ TablesRecorded s.engine ∧ ∀ dev ∈ devices, dev ∈ s.engine.wgDevices := by
  refine run_invariant (C := fun _ ev => ev.IsNri)
    (I := fun s => Unlisted s.engine ∧ TablesRecorded s.engine ∧
      ∀ dev ∈ devices, dev ∈ s.engine.wgDevices) ?_ ?_ (along_of_forall _ hnri) hrun
  · rintro s ev s' h hn ⟨hu, ht, hdev⟩
    refine ⟨unlisted_step h hn hu, step_recorded h ht, fun dev hmem => ?_⟩
    rw [← mem_keys, nri_keys h hn, mem_keys]
    exact hdev dev hmem
  · refine ⟨?_, fresh_recorded whitelist devices majorMinors nodeIps, fun dev hdev => mem_fresh hdev⟩
    intro x r hr
    cases hr

theorem Unlisted.newPods (h : Unlisted e)
    (hnames : ∀ p ∈ l.pods, p.info.podName ≠ "") : NewPods e l := by
  refine ⟨fun p hp _ => hnames p hp, fun podId _ => ⟨?_, fun r hr => ?_⟩⟩
  · unfold recorded
    cases hl : e.podRegInfos.lookup podId with
    | none => rfl
    | some r => exact (h podId r hl).2
  · rw [PodRegInfo.operation, (h podId r hr).1, Finset.inter_empty]
    exact Finset.notMem_empty _

end Registration

/-! ## What the agent reports -/

section Report

/-- What the guaranteed and the burstable group have of a pod. -/
def requestedBw (wgs : WorkloadGroups) (uid : String) : ℚ × ℚ :=
  let both (f : Workload → ℚ) := ((wgs .gaIndex).requestPods.lookup uid).elim 0 f +
    ((wgs .btIndex).requestPods.lookup uid).elim 0 f
  (both (·.inBps), both (·.outBps))

theorem requested_eq {wgs : WorkloadGroups} {events : String → Option PodRunInfo}
    (htables : ∀ t uid, (wgs t).requestPods.lookup uid =
      ((events uid).filter fun info => info.workloadType = t).map PodRunInfo.request)
    (htypes : ∀ uid info, events uid = some info → info.workloadType ≠ .groupIndex) (uid : String) :
    requestedBw wgs uid = countedBw (events uid) := by
  rw [requestedBw, htables, htables]
  cases h : events uid with
  | none => simp [countedBw]
  | some info =>
    have htype := htypes uid info h
    cases hw : info.workloadType with
    | gaIndex | btIndex | beIndex => simp [countedBw, hw, Option.filter]
    | groupIndex => exact absurd hw htype

theorem total_add_total {f : Workload → ℚ} {g : PodRequest → ℚ} {m n : Dict String Workload}
    {pods : Dict String PodRequest}
    (h : ∀ uid, (m.lookup uid).elim 0 f + (n.lookup uid).elim 0 f = (pods.lookup uid).elim 0 g) :
    total (fun _ => f) m + total (fun _ => f) n = total (fun _ => g) pods := by
  have hm : m.keys ⊆ m.keys ∪ n.keys ∪ pods.keys :=
    Finset.subset_union_left.trans Finset.subset_union_left
  have hn : n.keys ⊆ m.keys ∪ n.keys ∪ pods.keys :=
    Finset.subset_union_right.trans Finset.subset_union_left
  have hp : pods.keys ⊆ m.keys ∪ n.keys ∪ pods.keys := Finset.subset_union_right
  rw [total_eq_sum hm, total_eq_sum hn, total_eq_sum hp, ← Finset.sum_add_distrib]
  exact Finset.sum_congr rfl fun uid _ => h uid

end Report

/-- A disk as both sides know it: configured, profiled, with the same capacities. -/
structure SharedDisk where
  id : String
  rc : ResourceConfigSpec
  device : Device
  diskInfos : DiskInfos
  info : DiskInfo
  configured : rc.devices.lookup id = some device
  profiled : diskInfos.lookup id = some info
  capacityIn : device.capacityIn = info.totalRBPS
  capacityOut : device.capacityOut = info.totalWBPS
  capacityTotal : device.capacityTotal = info.totalBPS
  in_nonneg : 0 ≤ info.totalRBPS
  out_nonneg : 0 ≤ info.totalWBPS
  total_nonneg : 0 ≤ info.totalBPS
  bePool_nonneg : 0 ≤ rc.bePool
  bePool_le : rc.bePool ≤ 100

/-- `x` is at most `y`, and less than 2 below. -/
def CloseBelow (x y : ℚ) : Prop := x ≤ y ∧ y < x + 2

theorem closeBelow_poolShare {p : Int} (hp : 0 ≤ p) (hp' : p ≤ 100) {c : ℚ} (hc : 0 ≤ c) (a : ℚ) :
    CloseBelow (Sched.poolShare (100 - p) c - a) (c - p / 100 * c - a) := by
  have hle : (Sched.poolShare (100 - p) c : ℚ) ≤ ((100 - p : Int) : ℚ) * c / 100 :=
    Sched.poolShare_le (by omega) hc
  have hlt : ((100 - p : Int) : ℚ) * c / 100 < Sched.poolShare (100 - p) c + 2 :=
    Sched.lt_poolShare_add_two (by omega) (by omega) hc
  have hshare : ((100 - p : Int) : ℚ) * c / 100 = c - p / 100 * c := by
    push_cast
    ring
  exact ⟨by linarith, by linarith⟩

structure Agree (ga : Sched.IOPoolStatus) (alloc : Allocatable) : Prop where
  read : CloseBelow ga.inBps alloc.read.ga
  write : CloseBelow ga.outBps alloc.write.ga
  total : CloseBelow ga.total alloc.total.ga

theorem agree_of_requested (D : SharedDisk) {pods : Dict String PodRequest} {p : Sched.Pools}
    {wgs : WorkloadGroups} (hwgs : e.wgDevices.lookup D.id = some wgs)
    (hin : total (fun _ w => w.inBps) (wgs .gaIndex).requestPods +
      total (fun _ w => w.inBps) (wgs .btIndex).requestPods =
        total (fun _ r => (computed .diskIo D.id r).1) pods)
    (hout : total (fun _ w => w.outBps) (wgs .gaIndex).requestPods +
      total (fun _ w => w.outBps) (wgs .btIndex).requestPods =
        total (fun _ r => (computed .diskIo D.id r).2.1) pods) :
    ∃ alloc, calDiskAllocatable D.diskInfos D.rc.bePool e D.id = some alloc ∧
      Agree (Sched.initDevice .diskIo D.rc.bePool D.id D.device pods p).ga alloc := by
  refine ⟨_, by simp only [calDiskAllocatable, D.profiled, hwgs]; rfl, ?_, ?_, ?_⟩
  · simp only [Sched.initDevice, calculateGroupBw, D.capacityIn]
    rw [← hin, sub_sub _ (total _ _) (total _ _)]
    exact closeBelow_poolShare D.bePool_nonneg D.bePool_le D.in_nonneg _
  · simp only [Sched.initDevice, calculateGroupBw, D.capacityOut]
    rw [← hout, sub_sub _ (total _ _) (total _ _)]
    exact closeBelow_poolShare D.bePool_nonneg D.bePool_le D.out_nonneg _
  simp only [Sched.initDevice, calculateGroupBw, D.capacityTotal]
  have hclose := closeBelow_poolShare D.bePool_nonneg D.bePool_le D.total_nonneg
    (total (fun _ r => (computed .diskIo D.id r).1) pods +
      total (fun _ r => (computed .diskIo D.id r).2.1) pods)
  rw [← sub_sub] at hclose
  refine ⟨hclose.1.trans_eq ?_, lt_of_eq_of_lt ?_ hclose.2⟩
  · rw [← hin, ← hout]
    ring
  · rw [← hin, ← hout]
    ring

theorem Delivers.requested {P : ReservedPods} {resPods : AList fun _ : String => Option PodRequest}
    (hlist : Delivers P resPods) {e' : PodEngine} (hu : Unlisted e)
    (ht : TablesRecorded e) {order : List String}
    (hl : toNested l = fill (resPods.entries.flatMap podEntries) ∅)
    (he : processCrData .disk l order e = some e') (hdev : dev ∈ e.wgDevices) :
    ∃ wgs, e'.wgDevices.lookup dev = some wgs ∧ ∀ uid,
      requestedBw wgs uid = (P.pods.lookup uid).elim 0 (reservedBw dev) := by
  have hlisted : ∀ dev uid, l.listed dev uid =
      get (fill (resPods.entries.flatMap podEntries) ∅) dev uid := by
    intro dev uid
    rw [← hl, get_toNested]
    rfl
  -- every listed pod has the name of a reserved one
  have hinfo : ∀ dev uid info, l.listed dev uid = some info →
      info.podName ≠ "" ∧ info.workloadType ≠ .groupIndex := by
    intro dev uid info h
    rw [hlisted] at h
    obtain ⟨pr, hpr, x, -, hentry⟩ := hlist.get_iff.mp h
    obtain ⟨-, -, hname, htype⟩ := diskEntry_some hentry
    obtain ⟨_, r, _, heq, hr, hpod, -⟩ := hlist.lookup hpr
    cases heq
    exact ⟨by rw [hname, hpod]; exact P.named uid r hr, htype⟩
  have hnew : NewPods e l := hu.newPods fun p hp => (hinfo p.dev p.podId p.info (mem_pods.mp hp)).1
  obtain ⟨wgs, hwgs⟩ := isSome_iff_exists.mp (lookup_isSome.mpr
    ((processCrData_profiled he dev).mpr hdev))
  refine ⟨wgs, hwgs, fun uid => ?_⟩
  rw [← hlist.counted_eq, ← hlisted]
  refine requested_eq (fun t uid => ?_) (fun uid info h => (hinfo dev uid info h).2) uid
  have hentry := entry_processCrData_new ht hnew he hdev t .request uid
  rw [PodEngine.entry, hwgs, bind_some] at hentry
  exact hentry

/-- Some order of its loop over the entries lets the engine handle any typed list. -/
theorem exists_step_podList {s : State}
    (htyped : ∀ p ∈ l.pods, p.info.workloadType ≠ .groupIndex) :
    ∃ order s', step .disk s (.podList l order) = some s' := by
  have htyped' : Typed { s.engine with calls := [] } l := fun p hp _ => htyped p hp
  refine ⟨(takeList .disk l { s.engine with calls := [] }).podRegInfos.keys.toList, ?_⟩
  rw [step, processCrData, if_pos htyped', registerPod,
    if_pos ⟨Finset.nodup_toList _, Finset.toList_toFinset _⟩]
  exact ⟨_, rfl⟩

/-- After a list of exactly the reserved pods, the first that reaches the agent, the guaranteed bandwidth
the agent reports is that of the scheduler up to rounding. -/
theorem guaranteed_agree (D : SharedDisk) (P : ReservedPods) {ps : Sched.BlockIo.Resource}
    {ctx : Sched.ResourceIOContext} {pl : PodList} {disk : Sched.BlockIo.DiskInfo}
    (hctx : ctx.getReservedPods ps.nodeName = .ok pl) (hpods : pl.podList = P.pods)
    (hdisk : ps.info.disksStatus.lookup D.id = some disk)
    {resPods : AList fun _ : String => Option PodRequest} (hlist : Delivers P resPods) (gen : Int)
    {whitelist : Finset String} {devices : List String} {majorMinors : Dict String String}
    {nodeIps : List String} {evs : List Registration.Event} {s : Registration.State}
    (hdev : D.id ∈ devices) (hnri : ∀ ev ∈ evs, ev.IsNri)
    (hrun : run (Registration.step .disk)
      (Registration.start (.fresh whitelist devices majorMinors nodeIps)) evs = some s) :
    ∃ ps' disk' table events rest, Sched.BlockIo.initNodeStatus ps ctx D.rc = .done ps' ∧
      ps'.info.disksStatus.lookup D.id = some disk' ∧
      processPodsFromAggregator gen resPods ∅ = .done (table, ⟨.disk, gen, events⟩ :: rest) ∧
      ∀ l : PodEventList, Nested.toNested l = events →
        (∃ order s', Registration.step .disk s (.podList l order) = some s') ∧
        ∀ order s', Registration.step .disk s (.podList l order) = some s' →
          ∃ alloc, calDiskAllocatable D.diskInfos D.rc.bePool s'.engine D.id = some alloc ∧
            Agree disk'.ga alloc := by
  have hnone : ∀ p ∈ resPods.entries, (∅ : Table).lookup p.1 = none := fun _ _ =>
    lookup_empty _
  obtain ⟨table, u, hprocess, hdisks⟩ :=
    processPods_disk resPods.nodupKeys hlist.carried hnone ⟨∅, ∅, ∅⟩
  obtain ⟨hu, ht, hprofiled⟩ := unlisted_run hnri hrun
  have hlistDone : processPodsFromAggregator gen resPods ∅ = .done (table,
      [⟨.disk, gen, u.disk⟩, ⟨.net, gen, u.net⟩, ⟨.rdt, gen, ∅⟩,
        ⟨.rdtQuantity, gen, u.rdtQuantity⟩]) := by
    simp only [processPodsFromAggregator, hprocess, Outcome.done_bind]
    rfl
  refine ⟨ps.setDisks (Sched.BlockIo.initDisks D.rc pl.podList ps.info.disksStatus),
    disk.setPools (Sched.initDevice .diskIo D.rc.bePool D.id D.device P.pods disk.toPools),
    table, u.disk, _, by simp only [Sched.BlockIo.initNodeStatus, hctx], ?_, hlistDone,
    fun l hl => ?_⟩
  · simp only [Sched.BlockIo.Resource.setDisks, Sched.BlockIo.initDisks, lookup_mapVals, hdisk,
      map_some, D.configured, hpods]
  rw [hdisks] at hl
  refine ⟨exists_step_podList fun p hp => ?_, fun order s' hs => ?_⟩
  · have hlisted := mem_pods.mp hp
    have hget : l.listed p.dev p.podId = get (toNested l) p.dev p.podId :=
      (get_toNested l p.dev p.podId).symm
    rw [hget, hl] at hlisted
    obtain ⟨pr, -, x, -, hentry⟩ := hlist.get_iff.mp hlisted
    exact (diskEntry_some hentry).2.2.2
  · obtain ⟨e', he, rfl⟩ := map_eq_some_iff.mp hs
    obtain ⟨wgs, hwgs, hrequested⟩ := hlist.requested (e := { s.engine with calls := [] }) hu ht hl he
      (hprofiled D.id hdev)
    refine agree_of_requested D hwgs (total_add_total fun uid => ?_) (total_add_total fun uid => ?_)
    · refine (congrArg Prod.fst (hrequested uid)).trans ?_
      cases P.pods.lookup uid <;> rfl
    · refine (congrArg Prod.snd (hrequested uid)).trans ?_
      cases P.pods.lookup uid <;> rfl

/-- A disk of 101 for reading and 201 for writing, a tenth of it for best effort. -/
def sharedSda : SharedDisk where
  id := "sda"
  rc := ⟨10, Finmap.singleton "sda"
    ⟨"sda", .otherDevice, 1, 1, ∅, ∅, 101, 201, 302, "1G", "/"⟩, []⟩
  device := ⟨"sda", .otherDevice, 1, 1, ∅, ∅, 101, 201, 302, "1G", "/"⟩
  diskInfos := Finmap.singleton "sda" ⟨"sda", "8:0", "others", "/", "1G", 302, 101, 201, ∅, ∅⟩
  info := ⟨"sda", "8:0", "others", "/", "1G", 302, 101, 201, ∅, ∅⟩
  configured := by decide +kernel
  profiled := by decide +kernel
  capacityIn := rfl
  capacityOut := rfl
  capacityTotal := rfl
  in_nonneg := by decide +kernel
  out_nonneg := by decide +kernel
  total_nonneg := by decide +kernel
  bePool_nonneg := by decide
  bePool_le := by decide

/-- One reserved pod: the disk guaranteed, the card best effort and without quantities. -/
def reservedWeb : ReservedPods where
  pods := Finmap.singleton "1" Aggr.diskAndCard
  named := by
    intro uid r h
    obtain ⟨-, rfl⟩ := Dict.eq_of_lookup_singleton h
    decide
  distinct := by
    intro uid r h
    obtain ⟨-, rfl⟩ := Dict.eq_of_lookup_singleton h
    decide

def listedWeb : AList fun _ : String => Option PodRequest :=
  AList.singleton "1" (some ⟨"web", "default", Aggr.diskAndCard.request.map Aggr.readBack⟩)

theorem delivers_listedWeb : Delivers reservedWeb listedWeb where
  listed := by
    intro uid
    rw [listedWeb, reservedWeb, mem_singleton, AList.mem_keys, AList.keys_singleton,
      List.mem_singleton]
  requests := by
    intro uid r h
    obtain ⟨rfl, rfl⟩ := eq_of_lookup_singleton h
    refine ⟨_, Aggr.readBack, rfl, rfl, fun x hx => carries_readBack ?_, .refl _⟩
    revert x
    decide

def nodeWithSda : Sched.BlockIo.Resource where
  nodeName := "n"
  info :=
    { disksStatus := Finmap.singleton "sda" ⟨⟨.zero, .zero⟩, "sda", [], [], 1, 1, 1000, 0, "/"⟩
      emptyDirDevice := "sda" }

def ctxWithWeb : Sched.ResourceIOContext where
  reservedpod := Finmap.singleton "n" ⟨1, reservedWeb.pods⟩
  nsWhiteList := []
  claimDevMap := ∅
  queue := ⟨[], [], none⟩
  lastUpdatedGen := ∅

theorem guaranteed_agree_web :
    ∃ ps' disk' table events rest, Sched.BlockIo.initNodeStatus nodeWithSda ctxWithWeb sharedSda.rc =
        .done ps' ∧
      ps'.info.disksStatus.lookup "sda" = some disk' ∧
      processPodsFromAggregator 1 listedWeb ∅ = .done (table, ⟨.disk, 1, events⟩ :: rest) ∧
      ∀ l : PodEventList, Nested.toNested l = events →
        (∃ order s', Registration.step .disk (Registration.start (.fresh ∅ ["sda"] ∅ []))
          (.podList l order) = some s') ∧
        ∀ order s', Registration.step .disk (Registration.start (.fresh ∅ ["sda"] ∅ []))
            (.podList l order) = some s' →
          ∃ alloc, calDiskAllocatable sharedSda.diskInfos 10 s'.engine "sda" = some alloc ∧
            Agree disk'.ga alloc :=
  guaranteed_agree sharedSda reservedWeb rfl rfl lookup_singleton_eq delivers_listedWeb 1
    (List.mem_singleton_self _) (List.forall_mem_nil _) rfl

end IOIsolation.Agent
