import IOIsolation.Sched.ClaimEvents
import IOIsolation.Sched.Overcommit
import IOIsolation.Sched.Recovery

/-!
# Sched.ClaimSpace

Whether the claims that the claim-to-device map assigns to a disk fit on it. A pod is admitted when its
fresh claims fit beside the space that is counted as used, its claims are mapped when it is added, and
they are counted only when the event of the bound claim arrives.

* `admitPod_fresh` — an admitted pod asks each disk for the storage of its fresh claims there.
* `step_sound` — what one admission, `AddPod` or claim event keeps.
* `claims_fit` — the claims of every disk fit, in every run in which a pod is only added while all
  claims mapped to its disks were counted when it was admitted.
* `not_alwaysFits` — two pods that are scheduled one after the other before the first claim is bound.
-/

namespace IOIsolation.Sched

open Lib Finmap Dict Outcome Option List

namespace BlockIo

/-! ## The storage of an admitted pod -/

variable {anno : PodAnnoThroughput} {disks : Disks} {dev : String} {m m' : Requests}
  {a : RequestAnswers} {pvcs : Dict String PVCInfo} {claims : Dict String StorageInfo}

theorem mem_addPodRequest {r : Requests} : dev ∈ addPodRequest m r ↔ dev ∈ m ∨ dev ∈ r := by
  rw [← lookup_isSome, ← lookup_isSome, ← lookup_isSome, addPodRequest, lookup_unionWith]
  cases m.lookup dev <;> cases r.lookup dev <;> simp

theorem addVolume_mem [QuantityParser] {vol : String} {disk : DiskInfo}
    (h : addVolume anno dev disk vol m = .done m') : dev ∈ m' ∧ ∀ x ∈ m, x ∈ m' := by
  have hadd : ∀ r, m' = addPodRequest m (Finmap.singleton dev r) → dev ∈ m' ∧ ∀ x ∈ m, x ∈ m' := by
    rintro r rfl
    exact ⟨mem_addPodRequest.mpr (.inr ((mem_singleton _ _ _).mpr rfl)),
      fun x hx => mem_addPodRequest.mpr (.inl hx)⟩
  unfold addVolume at h
  cases hv : anno.lookup vol with
  | none =>
    simp only [hv] at h
    cases h
    exact hadd _ rfl
  | some v =>
    simp only [hv, bind_eq_done] at h
    obtain ⟨r, -, h⟩ := h
    cases h
    exact hadd r rfl

theorem volumeRequests_mem [QuantityParser] {l : List (String × String)}
    (h : volumeRequests anno disks l m = .done m') :
    (∀ x ∈ m, x ∈ m') ∧ ∀ p ∈ l, p.2 ∈ disks → p.2 ∈ m' := by
  induction l generalizing m with
  | nil =>
    cases h
    exact ⟨fun _ hx => hx, by simp⟩
  | cons p l ih =>
    obtain ⟨vol, dev⟩ := p
    rw [forall_mem_cons]
    cases hd : disks.lookup dev with
    | some disk =>
      simp only [volumeRequests, hd, bind_eq_done] at h
      obtain ⟨m1, hadd, h⟩ := h
      obtain ⟨hdev, hgrows⟩ := addVolume_mem hadd
      obtain ⟨hkeeps, hall⟩ := ih h
      exact ⟨fun x hx => hkeeps x (hgrows x hx), fun _ => hkeeps dev hdev, hall⟩
    | none =>
      have hno : dev ∈ disks → dev ∈ m' := fun hmem =>
        absurd hmem (lookup_eq_none.mp hd)
      simp only [volumeRequests, hd] at h
      split_ifs at h
      · obtain ⟨hkeeps, hall⟩ := ih h
        exact ⟨hkeeps, hno, hall⟩
      · obtain ⟨hkeeps, hall⟩ := ih h
        exact ⟨fun x hx => hkeeps x (mem_addPodRequest.mpr (.inl hx)), hno, hall⟩

/-- A claim is on the device of one of its volumes; two volumes may share the claim. -/
theorem packLoop_alloc {devices : Disks} {devs : List String} {vols : List PackVolume}
    {ds : Dict String PackDevice} {volToDev volToDev' : Dict String String}
    {allocation allocation' : Dict String PVCInfo} {P : String → PVCInfo → Prop}
    (hnames : (vols.map (·.name)).Nodup)
    (hold : ∀ key i, allocation.lookup key = some i →
      ∃ x, x ∉ vols.map (·.name) ∧ volToDev.lookup x = some i.devID ∧ P x i)
    (hnew : ∀ v ∈ vols, ∀ dev ∈ devices, P v.name ⟨dev, v.size, false⟩)
    (h : packLoop devices devs vols ds volToDev allocation = some (volToDev', allocation')) :
    ∀ key i, allocation'.lookup key = some i → ∃ x, volToDev'.lookup x = some i.devID ∧ P x i := by
  induction vols generalizing ds volToDev allocation with
  | nil =>
    cases h
    intro key i hi
    obtain ⟨x, -, hx⟩ := hold key i hi
    exact ⟨x, hx⟩
  | cons vol vols ih =>
    rw [map_cons, nodup_cons] at hnames
    rw [forall_mem_cons] at hnew
    unfold packLoop at h
    cases hfit : firstFit devices vol devs ds with
    | none =>
      simp only [hfit] at h
      split_ifs at h
      refine ih hnames.2 (fun key i hi => ?_) hnew.2 h
      obtain ⟨x, hx, hrest⟩ := hold key i hi
      exact ⟨x, fun hmem => hx (mem_cons_of_mem _ hmem), hrest⟩
    | some p =>
      obtain ⟨name, ds1⟩ := p
      simp only [hfit] at h
      refine ih hnames.2 (fun key i hi => ?_) hnew.2 h
      rw [lookup_insert_ite] at hi
      split_ifs at hi with hkey
      · cases hi
        exact ⟨vol.name, hnames.1, lookup_insert _, hnew.1 name (firstFit_mem hfit)⟩
      obtain ⟨x, hx, hlook, hP⟩ := hold key i hi
      rw [map_cons, mem_cons, not_or] at hx
      exact ⟨x, hx.2, by rw [lookup_insert_ite, if_neg hx.1]; exact hlook, hP⟩

/-- A fresh claim of a pod: its disk is there and requested, and its size is not negative. -/
def Requested (disks : Disks) (requests : Requests) (pvcs : Dict String PVCInfo) : Prop :=
  ∀ key i, pvcs.lookup key = some i → i.reuse = false →
    i.devID ∈ disks ∧ i.devID ∈ requests ∧ 0 ≤ i.reqStorage

variable {info : NodeInfo} {node : String} {pod : Pod} {claims' : Dict String StorageInfo}

theorem placeRest_requested [QuantityParser] {ns : String} {vols : List Volume}
    {bound : Dict String PVCInfo}
    (hnames : (vols.map (·.name)).Nodup) (hall : ∀ v ∈ vols, v.name ∈ a.volumeOrder)
    (hsizes : ∀ v ∈ vols, ∀ claim, a.restPVC v = .ok claim → 0 ≤ claim.requestedStorage.getD 0)
    (hbound : ∀ key i, bound.lookup key = some i → i.reuse = true)
    (h : placeRest info anno ns a vols m bound = .done (.ok (m', pvcs))) :
    Requested info.disksStatus m' pvcs := by
  have hreuse : ∀ key i, bound.lookup key = some i → i.reuse = false → False := by
    intro key i hi hre
    rw [hbound key i hi] at hre
    cases hre
  obtain ⟨rest, hrest, hcases⟩ := placeRest_cases h
  rcases hcases with ⟨-, rfl, rfl⟩ | ⟨-, volToDev, alloc, m2, hpack, hm2, rfl, rfl⟩
  · exact fun key i hi hre => (hreuse key i hi hre).elim
  have hperm : (rest.insertionSort fun v w => w.getVolume ≤ v.getVolume).Perm rest :=
    perm_insertionSort _ _
  have hnodup := getRestVolumes_names hnames hrest
  have halloc := packLoop_alloc
    (P := fun x i => i.devID ∈ info.disksStatus ∧ 0 ≤ i.reqStorage ∧ x ∈ a.volumeOrder)
    ((hperm.map _).nodup_iff.mpr hnodup) (fun key i hi => by simp at hi)
    (fun v hv dev hdev => by
      have hv := hperm.mem_iff.mp hv
      obtain ⟨w, hw, claim, hclaim, hsize⟩ := getRestVolumes_size hrest v hv
      refine ⟨?_, ?_, ?_⟩
      · obtain ⟨disk, hdisk⟩ := mem_iff.mp hdev
        rw [getRestDisksStatus, lookup_mapVals] at hdisk
        obtain ⟨disk', hdisk', -⟩ := map_eq_some_iff.mp hdisk
        exact mem_of_lookup_eq_some hdisk'
      · rw [hsize]
        exact hsizes w hw claim hclaim
      · have hmem : (v.name, v.pvcName) ∈ vols.filterMap (restOf bound ns a.restProvisioner) := by
          rw [← getRestVolumes_spec hrest]
          exact mem_map.mpr ⟨v, hv, rfl⟩
        obtain ⟨u, hu, hrestOf⟩ := mem_filterMap.mp hmem
        rw [(restOf_name hrestOf).1]
        exact hall u hu)
    hpack
  intro key i hi hre
  rw [lookup_union_ite] at hi
  split_ifs at hi with hmem
  · obtain ⟨x, hx, hdisk, hsize, horder⟩ := halloc key i hi
    refine ⟨hdisk, mem_addPodRequest.mpr (.inr ?_), hsize⟩
    rw [getVolumeRequestFromAnno, if_neg (ne_empty_of_lookup hx)] at hm2
    exact (volumeRequests_mem hm2).2 (x, i.devID)
      (mem_filterMap.mpr ⟨x, horder, by rw [hx, map_some]⟩) hdisk
  · exact (hreuse key i hi hre).elim

section

variable (hnames : (pod.volumes.map (·.name)).Nodup)
  (hall : ∀ v ∈ pod.volumes, v.name ∈ a.volumeOrder)
  (hsizes : ∀ v ∈ pod.volumes, ∀ claim, a.restPVC v = .ok claim → 0 ≤ claim.requestedStorage.getD 0)
include hnames hall hsizes

theorem cycle_requested [QuantityParser] {requests : Requests}
    (h : getCycleRequest node info claims pod anno a = .done (.ok (requests, pvcs))) :
    Requested info.disksStatus requests pvcs := by
  obtain ⟨disk, m1, bound, m2, m3, -, -, hbinfo, -, hplace, rfl⟩ := getCycleRequest_cases h
  have hbound : ∀ key i, bound.lookup key = some i → i.reuse = true := fun key i hi =>
    (((getBoundedPVCInfo_spec hbinfo).2 key i hi).resolve_left (by simp)).1
  have hreq := placeRest_requested hnames hall hsizes hbound hplace
  split_ifs
  · intro key i hi hre
    obtain ⟨hdisk, hmem, hsize⟩ := hreq key i hi hre
    exact ⟨hdisk, mem_addPodRequest.mpr (.inl hmem), hsize⟩
  · exact hreq

theorem admitPod_fresh [QuantityParser] {decode : String → PodAnnoThroughput} {ps : Resource}
    {order : List String}
    {request : RequestInfo} (horder : ∀ dev ∈ ps.info.disksStatus, dev ∈ order)
    (h : admitPod decode ps claims pod a order = .done (.ok request)) {key : String} {i : PVCInfo}
    (hi : request.pvcToDevice.lookup key = some i) (hre : i.reuse = false) :
    0 ≤ i.reqStorage ∧ ∃ e ∈ request.resourceRequest.entries,
      e.1 = i.devID ∧ e.2.storageRequest = newStorage request.pvcToDevice i.devID := by
  simp only [admitPod, getRequestByAnnotation, Bool.false_eq_true, if_false, bind_eq_done] at h
  obtain ⟨x, ⟨r, hcycle, hx⟩, h⟩ := h
  cases r with
  | error e => cases hx; cases h
  | ok p =>
    obtain ⟨requests, pvcs⟩ := p
    cases hx
    cases h
    obtain ⟨hdisk, hmem, hsize⟩ := cycle_requested hnames hall hsizes hcycle key i hi hre
    obtain ⟨req, hreq⟩ := mem_iff.mp hmem
    -- the loop over the requests comes to the disk, and all its entries for it are the same
    have hlist : (⟨i.devID, ⟨req, newStorage pvcs i.devID⟩⟩ : Sigma fun _ : String => DiskRequest) ∈
        order.filterMap fun dev => (requests.lookup dev).map fun req =>
          (⟨dev, ⟨req, newStorage pvcs dev⟩⟩ : Sigma fun _ : String => DiskRequest) :=
      mem_filterMap.mpr ⟨i.devID, horder _ hdisk, by rw [hreq, map_some]⟩
    obtain ⟨b, hb⟩ := isSome_iff_exists.mp
      (dlookup_isSome.mpr (mem_keys_of_mem hlist))
    obtain ⟨dev, -, hdev⟩ := mem_filterMap.mp (of_mem_dlookup hb)
    obtain ⟨req', -, heq⟩ := map_eq_some_iff.mp hdev
    cases heq
    refine ⟨hsize, ⟨i.devID, ⟨req', newStorage pvcs i.devID⟩⟩, ?_, rfl, rfl⟩
    rw [← AList.mem_lookup_iff, AList.lookup_to_alist]
    exact hb

end

/-! ## The space of mapped claims -/

/-- No entry of the claim map has a negative size. -/
def SizesNonneg (claims : Dict String StorageInfo) : Prop :=
  ∀ key info, claims.lookup key = some info → 0 ≤ info.requestedStorage

theorem SizesNonneg.amount (h : SizesNonneg claims) (node dev key : String) :
    0 ≤ (claims.lookup key).elim 0 fun info =>
      if info.nodeName = node ∧ info.devID = dev then info.requestedStorage else 0 := by
  cases hl : claims.lookup key with
  | none => exact le_rfl
  | some info =>
    rw [elim_some]
    split_ifs
    · exact h key info hl
    · exact le_rfl

theorem usedSpace_le (hsizes : SizesNonneg claims)
    (h : ∀ key, claims'.lookup key = claims.lookup key ∨ claims'.lookup key = none)
    (node dev : String) : usedSpace claims' node dev ≤ usedSpace claims node dev := by
  refine total_le fun key => ?_
  rcases h key with h | h
  · rw [h]
  · rw [h, elim_none]
    exact hsizes.amount node dev key

/-- Mapping the claims of a pod takes at most the storage the pod asks for. -/
theorem usedSpace_places (h : Places pvcs node claims claims') (hsizes : SizesNonneg claims)
    (hpvcs : ∀ key i, pvcs.lookup key = some i → i.reuse = false → 0 ≤ i.reqStorage)
    (n dev : String) :
    usedSpace claims' n dev ≤ usedSpace claims n dev + if n = node then newStorage pvcs dev else 0 := by
  by_cases hn : n = node
  · rw [if_pos hn, hn]
    refine total_le_add fun key => ?_
    have hnew : 0 ≤ (pvcs.lookup key).elim 0 fun i =>
        if ¬ i.reuse = true ∧ i.devID = dev then i.reqStorage else 0 := by
      cases hi : pvcs.lookup key with
      | none => exact le_rfl
      | some i =>
        rw [elim_some]
        split_ifs with hcond
        · exact hpvcs key i hi (by simpa using hcond.1)
        · exact le_rfl
    rcases h key with h | ⟨info, hinfo, i, hi, hre, rfl⟩
    · rw [h]
      exact le_add_of_nonneg_right hnew
    rw [hinfo, hi, elim_some, elim_some]
    simp only [hre, Bool.false_eq_true, not_false_eq_true, true_and]
    exact le_add_of_nonneg_left (hsizes.amount node dev key)
  · -- the fresh claims are on another node
    rw [if_neg hn, add_zero]
    refine total_le fun key => ?_
    rcases h key with h | ⟨info, hinfo, i, hi, hre, rfl⟩
    · rw [h]
    · rw [hinfo, elim_some, if_neg fun hnode => hn hnode.1.symm]
      exact hsizes.amount n dev key

theorem newStorage_eq_zero (h : ∀ key i, pvcs.lookup key = some i → i.reuse = false → i.devID ≠ dev) :
    newStorage pvcs dev = 0 := by
  have hzero : newStorage pvcs dev = total (fun _ (_ : PVCInfo) => (0 : Int)) pvcs := by
    refine total_congr fun key i hi => if_neg ?_
    rintro ⟨hre, hdev⟩
    exact h key i hi (by simpa using hre) hdev
  rw [hzero]
  simp [total]

end BlockIo

/-! ## Runs -/

namespace ClaimSpace

open BlockIo

/-- A pod that was admitted to a node, with the space that was counted as used on its disks then. -/
structure Admission where
  node : String
  pod : Pod
  request : RequestInfo
  counted : Dict String Int

structure State where
  sched : SchedState
  admitted : List Admission

inductive Event where
  | canAdmit (node : String) (pod : Pod) (decode : String → PodAnnoThroughput) (a : RequestAnswers)
      (order : List String)
  | add (i : Nat) (a : MappingAnswers)
  | update (old new : Option PersistentVolumeClaim) (a : ClaimAnswers)
  | delete (obj : Option PersistentVolumeClaim) (a : ClaimAnswers)

/-- `AdmitPod` and `CanAdmitPod` accept a pod, the `AddPod` of an admitted pod runs, whether it then
fails or not, or an event of a claim is handled. -/
def step [QuantityParser] (handles : List HandleKind) (s : State) : Event → Option State
  | .canAdmit node pod decode a order => do
    let ps ← s.sched.caches.blockIo.lookup node
    match admitPod decode ps s.sched.env.ctx.claimDevMap pod a order with
    | .done (.ok request) =>
      match canAdmitPod s.sched.caches.blockIo node (some request) with
      | .done (.ok ()) =>
        let counted := Dict.mapVals (fun _ disk => disk.requestedDiskSpace) ps.info.disksStatus
        some { s with admitted := s.admitted ++ [⟨node, pod, request, counted⟩] }
      | _ => none
    | _ => none
  | .add i a => do
    let adm ← s.admitted[i]?
    let (sched, _) ← (handleAddPod .ignored .blockIo adm.pod adm.node (.blockIo adm.request) a
      s.sched).toOption
    return { sched := sched, admitted := s.admitted.eraseIdx i }
  | .update old new a => do
    let sched ← (onUpdatePVC .ignored handles old new a s.sched).toOption
    return { s with sched := sched }
  | .delete obj a => do
    let sched ← (deletePVC .ignored handles obj a s.sched).toOption
    return { s with sched := sched }

/-- The claims of every disk fit on it. -/
def Fits (s : State) : Prop :=
  ∀ node dev disk, diskOf s.sched.caches.blockIo node dev = some disk →
    usedSpace s.sched.env.ctx.claimDevMap node dev ≤ disk.capacity

structure Start (s : State) : Prop where
  named : BlockIo.Named s.sched.caches.blockIo
  sizes : SizesNonneg s.sched.env.ctx.claimDevMap
  none : s.admitted = []

/-- What holds of every pod and every loop: the volumes have different names, no claim asks for less
than nothing, and a loop over a map visits all entries. -/
def Lawful (s : State) : Event → Prop
  | .canAdmit node pod _ a order =>
    (pod.volumes.map (·.name)).Nodup ∧
      (∀ v ∈ pod.volumes, ∀ claim, a.restPVC v = .ok claim → 0 ≤ claim.requestedStorage.getD 0) ∧
      (∀ v ∈ pod.volumes, v.name ∈ a.volumeOrder) ∧
      ∀ ps, s.sched.caches.blockIo.lookup node = some ps → ∀ dev ∈ ps.info.disksStatus, dev ∈ order
  | _ => True

/-- When a pod is added, the claims mapped to a disk that gets fresh claims of it were counted when
the pod was admitted. -/
def Counted (s : State) : Event → Prop
  | .add i _ => ∀ adm, s.admitted[i]? = some adm → ∀ key info,
      adm.request.pvcToDevice.lookup key = some info → info.reuse = false →
      ∀ counted, adm.counted.lookup info.devID = some counted →
        usedSpace s.sched.env.ctx.claimDevMap adm.node info.devID ≤ counted
  | _ => True

/-- The disks of an admitted pod have room for its fresh claims beside what was counted. -/
def Admitted (cache : Dict String Resource) (adm : Admission) : Prop :=
  ∀ key i, adm.request.pvcToDevice.lookup key = some i → i.reuse = false →
    0 ≤ i.reqStorage ∧ ∃ counted, adm.counted.lookup i.devID = some counted ∧
      ∀ disk, diskOf cache adm.node i.devID = some disk →
        counted + newStorage adm.request.pvcToDevice i.devID ≤ disk.capacity

structure Sound (s : State) : Prop where
  named : BlockIo.Named s.sched.caches.blockIo
  sizes : SizesNonneg s.sched.env.ctx.claimDevMap
  fits : Fits s
  admitted : ∀ adm ∈ s.admitted, Admitted s.sched.caches.blockIo adm

def SameSizes (cache cache' : Dict String Resource) : Prop :=
  ∀ node dev disk', diskOf cache' node dev = some disk' →
    ∃ disk, diskOf cache node dev = some disk ∧ disk.capacity = disk'.capacity

variable {cache : Dict String Resource} {node : String} {s s' : State} {handles : List HandleKind}
  {e : Event} {cache' : Dict String Resource} {adm : Admission} {claims : Dict String StorageInfo}
  {sched : SchedState} {a : ClaimAnswers}

theorem sameSizes_of_space
    (h : ∀ node dev, (diskOf cache' node dev).map space = (diskOf cache node dev).map space) :
    SameSizes cache cache' := by
  intro node dev disk' hdisk'
  have hmap := h node dev
  rw [hdisk', map_some] at hmap
  obtain ⟨disk, hdisk, heq⟩ := map_eq_some_iff.mp hmap.symm
  exact ⟨disk, hdisk, congrArg Prod.fst heq⟩

theorem Admitted.sameSizes (h : Admitted cache adm) (hsame : SameSizes cache cache') :
    Admitted cache' adm := by
  intro key i hi hre
  obtain ⟨hsize, counted, hcounted, hroom⟩ := h key i hi hre
  refine ⟨hsize, counted, hcounted, fun disk' hdisk' => ?_⟩
  obtain ⟨disk, hdisk, heq⟩ := hsame _ _ disk' hdisk'
  rw [← heq]
  exact hroom disk hdisk

theorem admit_admitted [QuantityParser] {ps : Resource} {decode : String → PodAnnoThroughput} {pod : Pod}
    {a : RequestAnswers} {order : List String} {request : RequestInfo}
    (hps : cache.lookup node = some ps) (hnames : (pod.volumes.map (·.name)).Nodup)
    (hsizes : ∀ v ∈ pod.volumes, ∀ claim, a.restPVC v = .ok claim →
      0 ≤ claim.requestedStorage.getD 0) (hall : ∀ v ∈ pod.volumes, v.name ∈ a.volumeOrder)
    (horder : ∀ dev ∈ ps.info.disksStatus, dev ∈ order)
    (hadm : admitPod decode ps claims pod a order = .done (.ok request))
    (hcan : canAdmitPod cache node (some request) = .done (.ok ())) :
    Admitted cache ⟨node, pod, request,
      mapVals (fun _ disk => disk.requestedDiskSpace) ps.info.disksStatus⟩ := by
  intro key i hi hre
  obtain ⟨hsize, e, he, hdev, hstorage⟩ := admitPod_fresh hnames hall hsizes horder hadm hi hre
  simp only [canAdmitPod, hps] at hcan
  obtain ⟨disk, hdisk, -, hspace⟩ := admitAll_ok hcan e he
  rw [hdev] at hdisk
  refine ⟨hsize, disk.requestedDiskSpace, by rw [lookup_mapVals, hdisk, map_some], ?_⟩
  intro disk' hdisk'
  rw [diskOf, hps, bind_some, hdisk, some.injEq] at hdisk'
  rw [← hdisk']
  linarith

/-- Adding an admitted pod whose disks were counted keeps the claims within the disks. -/
theorem add_fits (hs : Sound s) (hadm : Admitted s.sched.caches.blockIo adm)
    (hcounted : ∀ key info, adm.request.pvcToDevice.lookup key = some info → info.reuse = false →
      ∀ counted, adm.counted.lookup info.devID = some counted →
        usedSpace s.sched.env.ctx.claimDevMap adm.node info.devID ≤ counted)
    (hplaces : Places adm.request.pvcToDevice adm.node s.sched.env.ctx.claimDevMap
      sched.env.ctx.claimDevMap) (hsame : SameSizes s.sched.caches.blockIo sched.caches.blockIo)
    {dev : String} {disk' : DiskInfo} (hdisk' : diskOf sched.caches.blockIo node dev = some disk') :
    usedSpace sched.env.ctx.claimDevMap node dev ≤ disk'.capacity := by
  obtain ⟨disk, hdisk, heq⟩ := hsame node dev disk' hdisk'
  have hused := usedSpace_places hplaces hs.sizes (fun key i hi hre => (hadm key i hi hre).1) node dev
  have hfits := hs.fits node dev disk hdisk
  rw [← heq]
  by_cases hnode : node = adm.node
  · rw [if_pos hnode] at hused
    by_cases hfresh : ∃ key i, adm.request.pvcToDevice.lookup key = some i ∧ i.reuse = false ∧
        i.devID = dev
    · obtain ⟨key, i, hi, hre, hdev⟩ := hfresh
      obtain ⟨-, counted, hlook, hroom⟩ := hadm key i hi hre
      have hbefore := hcounted key i hi hre counted hlook
      rw [hdev, ← hnode] at hbefore hroom
      exact hused.trans ((Int.add_le_add_right hbefore _).trans (hroom disk hdisk))
    · -- no fresh claim comes to this disk
      rw [newStorage_eq_zero fun key i hi hre hdev => hfresh ⟨key, i, hi, hre, hdev⟩,
        add_zero] at hused
      exact hused.trans hfits
  · rw [if_neg hnode, add_zero] at hused
    exact hused.trans hfits

theorem sizes_places {pvcs : Dict String PVCInfo} {claims' : Dict String StorageInfo}
    (h : Places pvcs node claims claims') (hsizes : SizesNonneg claims)
    (hpvcs : ∀ key i, pvcs.lookup key = some i → i.reuse = false → 0 ≤ i.reqStorage) :
    SizesNonneg claims' := by
  intro key info hinfo
  rcases h key with h | ⟨info', hinfo', i, hi, hre, rfl⟩
  · rw [h] at hinfo
    exact hsizes key info hinfo
  rw [hinfo, some.injEq] at hinfo'
  rw [hinfo']
  exact hpvcs key i hi hre

theorem isUpdate_frame {s s' : SchedState} (h : IsUpdate handles a s s') :
    (BlockIo.Named s.caches.blockIo → BlockIo.Named s'.caches.blockIo) ∧
      SameSizes s.caches.blockIo s'.caches.blockIo ∧
      ∀ key, s'.env.ctx.claimDevMap.lookup key = s.env.ctx.claimDevMap.lookup key ∨
        s'.env.ctx.claimDevMap.lookup key = none := by
  rcases h with rfl | ⟨pvc, node, dev, q, add, rfl⟩
  · exact ⟨id, fun _ _ disk hdisk => ⟨disk, hdisk, rfl⟩, fun _ => .inl rfl⟩
  by_cases hb : .blockIo ∈ handles
  · refine ⟨updatePVCAll_named _ _ _ _ _, fun n d disk' hdisk' => ?_, fun key => ?_⟩
    · rw [updatePVCAll_diskOf hb] at hdisk'
      split_ifs at hdisk' with hnd
      · obtain ⟨disk, hdisk, heq⟩ := map_eq_some_iff.mp hdisk'
        exact ⟨disk, by rw [hnd.1, hnd.2]; exact hdisk, by rw [← heq]; rfl⟩
      · obtain ⟨disk, hdisk, heq⟩ := map_eq_some_iff.mp hdisk'
        exact ⟨disk, by rw [hnd.1, hnd.2]; exact hdisk, by rw [← heq]; rfl⟩
      · exact ⟨disk', hdisk', rfl⟩
    · rw [updatePVCAll_claims hb]
      split_ifs
      · rw [lookup_erase_ite]
        split_ifs
        · exact .inr rfl
        · exact .inl rfl
      · exact .inl rfl
  · rw [updatePVCAll, if_neg hb]
    exact ⟨id, fun _ _ disk hdisk => ⟨disk, hdisk, rfl⟩, fun _ => .inl rfl⟩

theorem Sound.isUpdate (hs : Sound s) (h : IsUpdate handles a s.sched sched) :
    Sound { s with sched := sched } := by
  obtain ⟨hnamed, hsame, hclaims⟩ := isUpdate_frame h
  refine ⟨hnamed hs.named, fun key info hinfo => ?_, fun node dev disk' hdisk' => ?_,
    fun adm hadm => (hs.admitted adm hadm).sameSizes hsame⟩
  · rcases hclaims key with h | h
    · rw [h] at hinfo
      exact hs.sizes key info hinfo
    · rw [h] at hinfo
      cases hinfo
  · obtain ⟨disk, hdisk, heq⟩ := hsame node dev disk' hdisk'
    rw [← heq]
    exact (usedSpace_le hs.sizes hclaims node dev).trans (hs.fits node dev disk hdisk)

theorem step_frame [QuantityParser] (hnamed : BlockIo.Named s.sched.caches.blockIo)
    (h : step handles s e = some s') :
    BlockIo.Named s'.sched.caches.blockIo ∧
      SameSizes s.sched.caches.blockIo s'.sched.caches.blockIo := by
  have hupdate : ∀ {a : ClaimAnswers}, IsUpdate handles a s.sched s'.sched →
      BlockIo.Named s'.sched.caches.blockIo ∧
        SameSizes s.sched.caches.blockIo s'.sched.caches.blockIo :=
    fun h => ⟨(isUpdate_frame h).1 hnamed, (isUpdate_frame h).2.1⟩
  cases e with
  | canAdmit node pod decode a order =>
    simp only [step, bind_eq_bind, bind_eq_some_iff] at h
    obtain ⟨ps, -, h⟩ := h
    split at h
    · split at h
      · cases h
        exact ⟨hnamed, fun _ _ disk hdisk => ⟨disk, hdisk, rfl⟩⟩
      · cases h
    · cases h
  | add i a =>
    simp only [step, bind_eq_bind, bind_eq_some_iff, toOption_eq_some] at h
    obtain ⟨adm, -, ⟨sched, r⟩, hadd, h⟩ := h
    cases h
    obtain ⟨hnamed', hspace, -⟩ := handleAddPod_places hnamed hadd
    exact ⟨hnamed', sameSizes_of_space hspace⟩
  | update old new a =>
    simp only [step, bind_eq_bind, bind_eq_some_iff, toOption_eq_some] at h
    obtain ⟨sched, hup, h⟩ := h
    cases h
    exact hupdate (onUpdatePVC_isUpdate hup)
  | delete obj a =>
    simp only [step, bind_eq_bind, bind_eq_some_iff, toOption_eq_some] at h
    obtain ⟨sched, hdel, h⟩ := h
    cases h
    exact hupdate (deletePVC_isUpdate hdel)

theorem step_sound [QuantityParser] (h : step handles s e = some s') (hlaw : Lawful s e)
    (hcounted : Counted s e)
    (hs : Sound s) : Sound s' := by
  cases e with
  | canAdmit node pod decode a order =>
    obtain ⟨hnames, hsizes, hall, horder⟩ := hlaw
    simp only [step, bind_eq_bind, bind_eq_some_iff] at h
    obtain ⟨ps, hps, h⟩ := h
    split at h
    · rename_i request hreq
      split at h
      · rename_i hcan
        cases h
        refine ⟨hs.named, hs.sizes, hs.fits, fun adm hadm => ?_⟩
        rcases mem_append.mp hadm with hadm | hadm
        · exact hs.admitted adm hadm
        · rw [List.mem_singleton.mp hadm]
          exact admit_admitted hps hnames hsizes hall (horder ps hps) hreq hcan
      · cases h
    · cases h
  | add i a =>
    simp only [step, bind_eq_bind, bind_eq_some_iff, toOption_eq_some] at h
    obtain ⟨adm, hadm, ⟨sched, r⟩, hadd, h⟩ := h
    cases h
    have hok := hs.admitted adm (mem_of_getElem? hadm)
    obtain ⟨hnamed, hspace, hplaces⟩ := handleAddPod_places hs.named hadd
    have hsame := sameSizes_of_space hspace
    exact ⟨hnamed, sizes_places hplaces hs.sizes fun key i hi hre => (hok key i hi hre).1,
      fun node dev disk' hdisk' => add_fits hs hok (hcounted adm hadm) hplaces hsame hdisk',
      fun adm' hadm' => (hs.admitted adm' (mem_of_mem_eraseIdx hadm')).sameSizes hsame⟩
  | update old new a =>
    simp only [step, bind_eq_bind, bind_eq_some_iff, toOption_eq_some] at h
    obtain ⟨sched, hup, h⟩ := h
    cases h
    exact hs.isUpdate (onUpdatePVC_isUpdate hup)
  | delete obj a =>
    simp only [step, bind_eq_bind, bind_eq_some_iff, toOption_eq_some] at h
    obtain ⟨sched, hdel, h⟩ := h
    cases h
    exact hs.isUpdate (deletePVC_isUpdate hdel)

/-- The claims of every disk fit, as long as pods are only added while the claims on their disks were
counted when they were admitted. -/
theorem claims_fit [QuantityParser] (handles : List HandleKind) {s s' : State} {es : List Event}
    (hstart : Start s)
    (hfits : Fits s) (hlaw : Along (step handles) Lawful s es)
    (hcounted : Along (step handles) Counted s es) (hrun : run (step handles) s es = some s') :
    Fits s' := by
  have hsound : Sound s := ⟨hstart.named, hstart.sizes, hfits, by simp [hstart.none]⟩
  have hend : Sound s' := run_invariant (I := Sound)
    (C := fun s e => Lawful s e ∧ Counted s e)
    (fun s e s' h hc hs => step_sound h hc.1 hc.2 hs) hsound (hlaw.and hcounted) hrun
  exact hend.fits

/-! Two pods with a new claim each, on a node with one disk of size 1000. -/

def bigClaim (size : Int) : PersistentVolumeClaim :=
  { name := "data", ns := "default", phase := .pending, storageClassName := some "ioi",
    selectedNode := none, storageProvisioner := none, requestedStorage := some size }

def bigProvisioner (_ : Volume) : ProvisionerAnswer := ⟨.ok (bigClaim 0), .ok ioiProvisioner⟩

def bigAnswers (size : Int) : RequestAnswers :=
  { initProvisioner := bigProvisioner, boundProvisioner := bigProvisioner,
    totalProvisioner := bigProvisioner, restProvisioner := bigProvisioner,
    boundPVC := fun _ => .ok (bigClaim size), restPVC := fun _ => .ok (bigClaim size),
    deviceOrder := ["sda"], volumeOrder := ["v"] }

/-- A scheduling cycle for a pod whose claim has the pod's name. -/
def bigCycle (name : String) (size : Int) : List Event :=
  [.canAdmit "n" { sdaPod name with volumes := [⟨"v", some name, false⟩] } (fun _ => ∅)
    (bigAnswers size) ["sda"],
   .add 0 { provisioner := bigProvisioner, getFail := none, writeFail := none }]

attribute [local instance] sampleParser

def bigStart : State :=
  { sched := {
      caches := { blockIo := Finmap.singleton "n" sdaNode, networkIo := ∅, rdt := ∅, rdtQuantity := ∅ }
      env := sdaEnv }
    admitted := [] }

theorem bigStart_start : Start bigStart where
  named := by
    intro node ps hps
    obtain ⟨rfl, rfl⟩ := eq_of_lookup_singleton hps
    rfl
  sizes := by
    intro key info hinfo
    cases hinfo
  none := rfl

theorem bigStart_fits : Fits bigStart := by
  intro node dev disk hdisk
  obtain ⟨ps, hps, hlook⟩ := bind_eq_some_iff.mp hdisk
  obtain ⟨rfl, rfl⟩ := eq_of_lookup_singleton hps
  have hcap : 0 ≤ disk.capacity := by
    simp only [sdaNode, addCacheNodeInfo, lookup_mapVals, map_eq_some_iff] at hlook
    obtain ⟨info, -, rfl⟩ := hlook
    exact Int.natCast_nonneg 1000
  exact hcap

def OnlySda (s : State) : Prop :=
  ∀ ps, s.sched.caches.blockIo.lookup "n" = some ps → ∀ dev ∈ ps.info.disksStatus, dev = "sda"

theorem bigStart_onlySda : OnlySda bigStart := by
  intro ps hps dev hdev
  cases hps
  obtain ⟨disk, hdisk⟩ := mem_iff.mp hdev
  simp only [sdaNode, addCacheNodeInfo, lookup_mapVals, map_eq_some_iff] at hdisk
  obtain ⟨info, hinfo, -⟩ := hdisk
  exact (eq_of_lookup_singleton hinfo).1

theorem OnlySda.step (h : step handles s e = some s')
    (hnamed : BlockIo.Named s.sched.caches.blockIo) (hs : OnlySda s) :
    BlockIo.Named s'.sched.caches.blockIo ∧ OnlySda s' := by
  have hkeep : SameSizes s.sched.caches.blockIo s'.sched.caches.blockIo → OnlySda s' := by
    intro hsame ps hps dev hdev
    obtain ⟨disk', hdisk'⟩ := mem_iff.mp hdev
    obtain ⟨disk, hdisk, -⟩ := hsame "n" dev disk' (by rw [diskOf, hps, bind_some, hdisk'])
    obtain ⟨ps₀, hps₀, hlook⟩ := bind_eq_some_iff.mp hdisk
    exact hs ps₀ hps₀ dev (mem_of_lookup_eq_some hlook)
  obtain ⟨hnamed', hsame⟩ := step_frame hnamed h
  exact ⟨hnamed', hkeep hsame⟩

theorem lawful_bigCycles {es : List Event}
    (h : ∀ e ∈ es, ∃ name size, 0 ≤ size ∧ e ∈ bigCycle name size) :
    Along (step handles) Lawful bigStart es := by
  refine along_of_invariant (I := fun s => BlockIo.Named s.sched.caches.blockIo ∧ OnlySda s)
    (C := fun _ e => ∃ name size, 0 ≤ size ∧ e ∈ bigCycle name size)
    (fun s e s' hstep _ hs => OnlySda.step hstep hs.1 hs.2) ?_
    ⟨bigStart_start.named, bigStart_onlySda⟩ (along_of_forall _ h)
  rintro s e ⟨name, size, hsize, he⟩ ⟨-, hsda⟩
  simp only [bigCycle, mem_cons, not_mem_nil, or_false] at he
  rcases he with rfl | rfl
  · refine ⟨nodup_singleton _, ?_, ?_, fun ps hps dev hdev => ?_⟩
    · rintro v - claim hclaim
      cases hclaim
      exact hsize
    · simp [bigAnswers]
    · rw [hsda ps hps dev hdev]
      exact mem_singleton_self _
  · trivial

/-- The same without a condition on what was counted. -/
def AlwaysFits [QuantityParser] : Prop :=
  ∀ handles s s' es, Start s → Fits s → Along (step handles) Lawful s es →
    run (step handles) s es = some s' → Fits s'

/-- Two pods with claims of size 600 are scheduled before the first claim is bound. -/
theorem not_alwaysFits : ¬ AlwaysFits := by
  intro h
  obtain ⟨s', hrun, hused, disk, hdisk, hsize⟩ :
      ∃ s ∈ run (step []) bigStart (bigCycle "a" 600 ++ bigCycle "b" 600),
        usedSpace s.sched.env.ctx.claimDevMap "n" "sda" = 1200 ∧
          ∃ disk ∈ diskOf s.sched.caches.blockIo "n" "sda", disk.capacity = 1000 := by
    decide +kernel
  have hfits := h [] bigStart s' _ bigStart_start bigStart_fits (lawful_bigCycles ?_) hrun
    "n" "sda" disk hdisk
  · rw [hused, hsize] at hfits
    exact absurd hfits (by decide)
  intro e he
  rcases mem_append.mp he with he | he
  · exact ⟨"a", 600, by decide, he⟩
  · exact ⟨"b", 600, by decide, he⟩

/-- One such pod fits. -/
theorem claims_fit_big :
    ∃ s', run (step [.blockIo]) bigStart (bigCycle "a" 600) = some s' ∧
      usedSpace s'.sched.env.ctx.claimDevMap "n" "sda" = 600 ∧ Fits s' := by
  refine exists_run (by decide +kernel) fun s' hrun _ => claims_fit [.blockIo] bigStart_start
    bigStart_fits (lawful_bigCycles fun e he => ⟨"a", 600, by decide, he⟩) ?_ hrun
  -- when the pod is added nothing is mapped yet, and nothing was counted
  obtain ⟨s₁, hs₁, hclaims, hcounted⟩ :
      ∃ s ∈ run (step [.blockIo]) bigStart ((bigCycle "a" 600).take 1),
        s.sched.env.ctx.claimDevMap = ∅ ∧
          ∀ adm ∈ s.admitted, adm.counted = Finmap.singleton "sda" 0 := by
    decide +kernel
  obtain ⟨s₁', hstep, hnil⟩ := run_cons_some hs₁
  cases hnil
  refine (along_cons hstep).mpr ⟨trivial, ?_, ?_⟩
  · intro adm hadm key info hinfo hre counted hlook
    rw [hcounted adm (mem_of_getElem? hadm)] at hlook
    obtain ⟨hdev, rfl⟩ := eq_of_lookup_singleton hlook
    rw [hclaims, hdev]
    exact le_rfl
  · cases step [.blockIo] s₁ _ with
    | none | some => trivial

end ClaimSpace
end IOIsolation.Sched
