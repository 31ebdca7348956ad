import IOIsolation.Sched.Recovery

/-!
# Sched.Packing

The first-fit packer by itself: the devices it remembers from earlier uses, and any order among
volumes or disks with equal sort keys.

* `pack_eq_packer`   — what it remembers makes no difference.
* `FitsOn`           — the volumes put on one disk, against what was left of it.
* `packLoop_fits`    — the loop over the volumes overloads no disk.
* `pack_sound`       — what the packer promises for volumes with claims of their own.
* `pack_sound_iff`   — these are the lists of claims for which it keeps its promise.
-/

namespace IOIsolation.Sched.BlockIo

open Lib Finmap Dict List Option

/-! ## The packer -/

/-- `FirstFitPacker`: what it knows of the devices, from this use or from an earlier one. -/
structure FirstFitPacker where
  devices : Dict String PackDevice

/-- The calls of `AddDevice` at the start of `Pack`: devices of the same name are overwritten. -/
def FirstFitPacker.addDevices (p : FirstFitPacker) (devices : Disks) : FirstFitPacker :=
  ⟨Dict.mapVals (fun _ disk => packDeviceOf disk) devices ∪ p.devices⟩

def gaTotal (devices : Disks) (dev : String) : ℚ := (devices.lookup dev).elim 0 fun disk => disk.ga.total

/-- The orders the two sorts may leave. -/
structure SortedFor (devices : Disks) (vols : List PackVolume) (devs : List String)
    (sorted : List PackVolume) : Prop where
  devs_lists : Dict.Lists devs devices
  devs_sorted : devs.Pairwise fun x y => gaTotal devices y ≤ gaTotal devices x
  vols_perm : sorted.Perm vols
  vols_sorted : sorted.Pairwise fun v w => w.getVolume ≤ v.getVolume

def FirstFitPacker.pack (p : FirstFitPacker) (devices : Disks) (devs : List String)
    (sorted : List PackVolume) : Option (Dict String String × Dict String PVCInfo) :=
  packLoop devices devs sorted (p.addDevices devices).devices ∅ ∅

variable {dev : String} {devices : Disks} {disk : DiskInfo} {ds ds' : Dict String PackDevice}
  {devs : List String} {vols : List PackVolume} {d : PackDevice} {v vol : PackVolume}
  {allocation allocation' : Dict String PVCInfo} {volToDev volToDev' : Dict String String} {i : Nat}

theorem lookup_addDevices (p : FirstFitPacker) (h : devices.lookup dev = some disk) :
    (p.addDevices devices).devices.lookup dev = some (packDeviceOf disk) := by
  have hmem : dev ∈ mapVals (fun _ disk => packDeviceOf disk) devices := by
    rw [mem_iff]
    exact ⟨packDeviceOf disk, by rw [lookup_mapVals, h, map_some]⟩
  rw [FirstFitPacker.addDevices, lookup_union_ite, if_pos hmem, lookup_mapVals, h, map_some]

/-- Both know the same of the disks of this use. -/
def KnowsSame (devices : Disks) (ds ds' : Dict String PackDevice) : Prop :=
  ∀ dev ∈ devices, ds.lookup dev = ds'.lookup dev

theorem firstFit_knowsSame (vol : PackVolume) (h : KnowsSame devices ds ds') (names : List String) :
    firstFit devices vol names ds = none ∧ firstFit devices vol names ds' = none ∨
      ∃ name d, firstFit devices vol names ds = some (name, ds.insert name d) ∧
        firstFit devices vol names ds' = some (name, ds'.insert name d) := by
  induction names with
  | nil => exact .inl ⟨rfl, rfl⟩
  | cons x names ih =>
    cases hdisk : devices.lookup x with
    | none => simpa only [firstFit, hdisk] using ih
    | some disk =>
      have hsame := h x (mem_of_lookup_eq_some hdisk)
      cases hd : ds.lookup x with
      | none =>
        simpa only [firstFit, hdisk, hd, ← hsame] using ih
      | some d =>
        rw [hd] at hsame
        by_cases hfit : canFit d vol disk = true
        · exact .inr ⟨x, packOn d vol disk, by simp only [firstFit, hdisk, hd, hfit, if_true],
            by simp only [firstFit, hdisk, ← hsame, hfit, if_true]⟩
        · simpa only [firstFit, hdisk, hd, ← hsame, hfit, Bool.false_eq_true, if_false] using ih

theorem packLoop_knowsSame (h : KnowsSame devices ds ds') (volToDev : Dict String String)
    (allocation : Dict String PVCInfo) :
    packLoop devices devs vols ds volToDev allocation =
      packLoop devices devs vols ds' volToDev allocation := by
  induction vols generalizing ds ds' volToDev allocation with
  | nil => rfl
  | cons vol vols ih =>
    rcases firstFit_knowsSame vol h devs with ⟨hnone, hnone'⟩ | ⟨name, d, hfit, hfit'⟩
    · simp only [packLoop, hnone, hnone', ih h]
    simp only [packLoop, hfit, hfit']
    refine ih (fun dev hdev => ?_) _ _
    rw [lookup_insert_ite, lookup_insert_ite, h dev hdev]

theorem pack_eq_packer (p : FirstFitPacker) (devices : Disks) (order : List String)
    (vols : List PackVolume) :
    pack devices order vols = p.pack devices
      ((order.filter (· ∈ devices)).insertionSort fun x y => gaTotal devices y ≤ gaTotal devices x)
      (vols.insertionSort fun v w => w.getVolume ≤ v.getVolume) := by
  refine packLoop_knowsSame (fun dev hdev => ?_) ∅ ∅
  obtain ⟨disk, hdisk⟩ := mem_iff.mp hdev
  rw [lookup_addDevices p hdisk, lookup_mapVals, hdisk, map_some]

/-! ## One disk -/

/-- The bandwidths of the guaranteed volumes as the disk feels them. -/
def guaranteedRead (disk : DiskInfo) (vols : List PackVolume) : ℚ :=
  (vols.map fun v => if v.be then 0 else v.transRead disk).sum

def guaranteedWrite (disk : DiskInfo) (vols : List PackVolume) : ℚ :=
  (vols.map fun v => if v.be then 0 else v.transWrite disk).sum

theorem guaranteed_bestEffort (disk : DiskInfo) (h : ¬ ∃ v ∈ vols, v.be = false) :
    guaranteedRead disk vols = 0 ∧ guaranteedWrite disk vols = 0 := by
  have hzero : ∀ f : PackVolume → ℚ, (vols.map fun w => if w.be = true then 0 else f w).sum = 0 := by
    intro f
    apply sum_eq_zero
    intro x hx
    obtain ⟨w, hw, rfl⟩ := mem_map.mp hx
    have hwbe : w.be = true := by
      by_contra hno
      exact h ⟨w, hw, Bool.eq_false_iff.mpr hno⟩
    rw [if_pos hwbe]
  exact ⟨hzero _, hzero _⟩

/-- There is room for one more best-effort pod. -/
def BeRoom (be bem : IOPoolStatus) : Prop :=
  bem.inBps < be.inBps / (be.num + 1) ∧ bem.outBps < be.outBps / (be.num + 1) ∧
    bem.total < be.total / (be.num + 1) ∧ be.underPressure = false

/-- The volumes fit together on what is left of the disk. -/
structure FitsOn (disk : DiskInfo) (d : PackDevice) (vols : List PackVolume) : Prop where
  storage : vols ≠ [] → (vols.map (·.size)).sum ≤ d.size
  guaranteed : (∃ v ∈ vols, v.be = false) →
    guaranteedRead disk vols ≤ d.ga.inBps ∧ guaranteedWrite disk vols ≤ d.ga.outBps ∧
      guaranteedRead disk vols + guaranteedWrite disk vols ≤ d.ga.total ∧
      d.ga.underPressure = false
  bestEffort : (∃ v ∈ vols, v.be = true) → BeRoom d.be d.bem

theorem fitsOn_nil (disk : DiskInfo) (d : PackDevice) : FitsOn disk d [] :=
  ⟨fun h => absurd rfl h, by simp, by simp⟩

theorem canFit_be (hbe : v.be = true) :
    canFit d v disk = true ↔ BeRoom d.be d.bem ∧ v.size ≤ d.size := by
  simp only [canFit, hbe, if_true, Bool.and_eq_true, decide_eq_true_eq, Bool.not_eq_true', BeRoom,
    gt_iff_lt, ge_iff_le]
  tauto

theorem canFit_guaranteed (hbe : v.be = false) :
    canFit d v disk = true ↔ v.transRead disk ≤ d.ga.inBps ∧ v.transWrite disk ≤ d.ga.outBps ∧
      v.transRead disk + v.transWrite disk ≤ d.ga.total ∧ v.size ≤ d.size ∧
      d.ga.underPressure = false := by
  simp only [canFit, hbe, Bool.false_eq_true, if_false, Bool.and_eq_true, decide_eq_true_eq,
    Bool.not_eq_true', ge_iff_le]
  tauto

theorem canFit_size (h : canFit d v disk = true) : v.size ≤ d.size := by
  cases hbe : v.be with
  | true => exact ((canFit_be hbe).mp h).2
  | false => exact ((canFit_guaranteed hbe).mp h).2.2.2.1

theorem packOn_be (hbe : v.be = true) : packOn d v disk = { d with size := d.size - v.size } := by
  simp [packOn, hbe]

theorem packOn_guaranteed (hbe : v.be = false) :
    packOn d v disk = { d with
      ga := { d.ga with
        inBps := d.ga.inBps - v.transRead disk
        outBps := d.ga.outBps - v.transWrite disk
        total := d.ga.total - (v.transRead disk + v.transWrite disk) }
      size := d.size - v.size } := by
  simp [packOn, hbe]

@[simp] theorem packOn_size (d : PackDevice) (v : PackVolume) (disk : DiskInfo) :
    (packOn d v disk).size = d.size - v.size := rfl

theorem FitsOn.cons (hv : canFit d v disk = true) (h : FitsOn disk (packOn d v disk) vols) :
    FitsOn disk d (v :: vols) := by
  refine ⟨fun _ => ?_, ?_, ?_⟩
  · have hsize := canFit_size hv
    rw [map_cons, sum_cons]
    by_cases hnil : vols = []
    · simpa [hnil] using hsize
    have hrest := h.storage hnil
    rw [packOn_size] at hrest
    linarith
  · intro hex
    cases hbe : v.be with
    | true =>
      have hsome : ∃ w ∈ vols, w.be = false := by simpa [hbe] using hex
      have hrest := h.guaranteed hsome
      rw [packOn_be hbe] at hrest
      simpa [guaranteedRead, guaranteedWrite, hbe] using hrest
    | false =>
      obtain ⟨hin, hout, htotal, -, hpressure⟩ := (canFit_guaranteed hbe).mp hv
      simp only [guaranteedRead, guaranteedWrite, map_cons, sum_cons, hbe,
        Bool.false_eq_true, if_false]
      by_cases hsome : ∃ w ∈ vols, w.be = false
      · obtain ⟨hr, hw, ht, -⟩ := h.guaranteed hsome
        rw [packOn_guaranteed hbe] at hr hw ht
        simp only [guaranteedRead, guaranteedWrite] at hr hw ht
        exact ⟨by linarith, by linarith, by linarith, hpressure⟩
      · -- the rest is best effort and adds nothing
        obtain ⟨hr, hw⟩ := guaranteed_bestEffort disk hsome
        simp only [guaranteedRead, guaranteedWrite] at hr hw
        exact ⟨by linarith, by linarith, by linarith, hpressure⟩
  · rintro ⟨w, hw, hwbe⟩
    rcases mem_cons.mp hw with rfl | hw
    · exact ((canFit_be hwbe).mp hv).1
    · exact h.bestEffort ⟨w, hw, hwbe⟩

variable {vols' : List PackVolume} {name claim : String} {claims : List String}

theorem guaranteed_perm (disk : DiskInfo) (h : vols.Perm vols') :
    guaranteedRead disk vols = guaranteedRead disk vols' ∧
      guaranteedWrite disk vols = guaranteedWrite disk vols' :=
  ⟨(h.map _).sum_eq, (h.map _).sum_eq⟩

theorem FitsOn.perm (h : FitsOn disk d vols) (hp : vols.Perm vols') : FitsOn disk d vols' := by
  obtain ⟨hread, hwrite⟩ := guaranteed_perm disk hp
  refine ⟨fun hne => ?_, fun ⟨v, hv, hbe⟩ => ?_, fun ⟨v, hv, hbe⟩ => ?_⟩
  · rw [← (hp.map (·.size)).sum_eq]
    exact h.storage fun hnil => hne (perm_nil.mp (hnil ▸ hp.symm))
  · rw [← hread, ← hwrite]
    exact h.guaranteed ⟨v, hp.mem_iff.mpr hv, hbe⟩
  · exact h.bestEffort ⟨v, hp.mem_iff.mpr hv, hbe⟩

/-! ## The loop -/

theorem firstFit_spec {names : List String} (h : firstFit devices vol names ds = some (name, ds')) :
    ∃ disk d, devices.lookup name = some disk ∧ ds.lookup name = some d ∧
      canFit d vol disk = true ∧ ds' = ds.insert name (packOn d vol disk) := by
  induction names with
  | nil => cases h
  | cons x names ih =>
    unfold firstFit at h
    split at h
    · rename_i disk d hdisk hd
      split_ifs at h with hfit
      · cases h
        exact ⟨disk, d, hdisk, hd, hfit, rfl⟩
      · exact ih h
    · exact ih h

def volumesOn (volToDev : Dict String String) (dev : String) (vols : List PackVolume) :
    List PackVolume :=
  vols.filter fun v => volToDev.lookup v.name = some dev

theorem packLoop_cons (hnames : ((vol :: vols).map (·.name)).Nodup)
    (hpvcs : ((vol :: vols).map (·.pvcName)).Nodup)
    (hfresh : ∀ v ∈ vol :: vols, v.pvcName ∉ allocation)
    (h : packLoop devices devs (vol :: vols) ds volToDev allocation = some (volToDev', allocation')) :
    ∃ name disk d, devices.lookup name = some disk ∧ ds.lookup name = some d ∧
      canFit d vol disk = true ∧ volToDev'.lookup vol.name = some name ∧
      (∀ v ∈ vols, v.pvcName ∉ allocation.insert vol.pvcName ⟨name, vol.size, false⟩) ∧
      packLoop devices devs vols (ds.insert name (packOn d vol disk)) (volToDev.insert vol.name name)
        (allocation.insert vol.pvcName ⟨name, vol.size, false⟩) = some (volToDev', allocation') := by
  rw [map_cons, nodup_cons] at hnames hpvcs
  rw [forall_mem_cons] at hfresh
  unfold packLoop at h
  cases hfit : firstFit devices vol devs ds with
  | none =>
    simp only [hfit, if_neg hfresh.1] at h
    cases h
  | some p =>
    obtain ⟨name, ds1⟩ := p
    simp only [hfit] at h
    obtain ⟨disk, d, hdisk, hd, hcan, rfl⟩ := firstFit_spec hfit
    have hfresh' : ∀ v ∈ vols,
        v.pvcName ∉ allocation.insert vol.pvcName ⟨name, vol.size, false⟩ := by
      intro v hv hmem
      rcases mem_insert.mp hmem with heq | hmem
      · exact hpvcs.1 (mem_map.mpr ⟨v, hv, heq⟩)
      · exact hfresh.2 v hv hmem
    refine ⟨name, disk, d, hdisk, hd, hcan, ?_, hfresh', h⟩
    obtain ⟨place, -, hvols, -⟩ := packLoop_spec hnames.2 hpvcs.2 hfresh' h
    rw [hvols.kept, lookup_insert]
    intro x hmem
    obtain ⟨v, hv, heq⟩ := mem_map.mp hmem
    exact hnames.1 (mem_map.mpr ⟨v, hv, (Prod.mk.inj heq).1⟩)

theorem volumesOn_cons_self (h : volToDev.lookup vol.name = some dev) (vols : List PackVolume) :
    volumesOn volToDev dev (vol :: vols) = vol :: volumesOn volToDev dev vols :=
  filter_cons_of_pos (by simpa using h)

theorem volumesOn_cons_ne (h : volToDev.lookup vol.name = some name) (hne : name ≠ dev)
    (vols : List PackVolume) :
    volumesOn volToDev dev (vol :: vols) = volumesOn volToDev dev vols := by
  refine filter_cons_of_neg ?_
  simp only [h, some.injEq, decide_eq_true_eq]
  exact hne

section

variable (hnames : (vols.map (·.name)).Nodup) (hpvcs : (vols.map (·.pvcName)).Nodup)
  (hfresh : ∀ v ∈ vols, v.pvcName ∉ allocation)
  (h : packLoop devices devs vols ds volToDev allocation = some (volToDev', allocation'))
include hnames hpvcs hfresh h

theorem packLoop_fits (hdisk : devices.lookup dev = some disk) (hd : ds.lookup dev = some d) :
    FitsOn disk d (volumesOn volToDev' dev vols) := by
  induction vols generalizing ds volToDev allocation d with
  | nil => exact fitsOn_nil disk d
  | cons vol vols ih =>
    obtain ⟨name, disk1, d1, hdisk1, hd1, hcan, hkept, hfresh', h⟩ :=
      packLoop_cons hnames hpvcs hfresh h
    have hnames' := (nodup_cons.mp hnames).2
    have hpvcs' := (nodup_cons.mp hpvcs).2
    by_cases hdev : name = dev
    · subst hdev
      rw [hdisk, some.injEq] at hdisk1
      rw [hd, some.injEq] at hd1
      subst hdisk1 hd1
      rw [volumesOn_cons_self hkept]
      exact (ih hnames' hpvcs' hfresh' h (lookup_insert _)).cons hcan
    · rw [volumesOn_cons_ne hkept hdev]
      exact ih hnames' hpvcs' hfresh' h ((lookup_insert_of_ne _ (Ne.symm hdev)).trans hd)

theorem packLoop_storage (dev : String) : newStorage allocation' dev =
      newStorage allocation dev + ((volumesOn volToDev' dev vols).map (·.size)).sum := by
  induction vols generalizing ds volToDev allocation with
  | nil =>
    cases h
    simp [volumesOn]
  | cons vol vols ih =>
    have hvol := hfresh vol mem_cons_self
    obtain ⟨name, disk1, d1, -, -, -, hkept, hfresh', h⟩ := packLoop_cons hnames hpvcs hfresh h
    have hrest := ih (nodup_cons.mp hnames).2 (nodup_cons.mp hpvcs).2 hfresh' h
    rw [hrest, newStorage, total_insert hvol, newStorage]
    by_cases hdev : name = dev
    · subst hdev
      rw [volumesOn_cons_self hkept]
      simp only [Bool.false_eq_true, not_false_eq_true, and_self, if_true, map_cons, sum_cons]
      ring
    · rw [volumesOn_cons_ne hkept hdev]
      simp [hdev]

end

/-! ## What the packer promises -/

/-- Every volume is on a disk, its claim with it, and no disk is asked for more than it had left. -/
structure PackSound (devices : Disks) (vols : List PackVolume) (volToDev : Dict String String)
    (allocation : Dict String PVCInfo) : Prop where
  mapped : ∀ v ∈ vols, ∃ dev ∈ devices, volToDev.lookup v.name = some dev
  agrees : ∀ v ∈ vols, ∃ info, allocation.lookup v.pvcName = some info ∧
    volToDev.lookup v.name = some info.devID
  bandwidth : ∀ dev disk, devices.lookup dev = some disk →
    guaranteedRead disk (volumesOn volToDev dev vols) ≤ disk.ga.inBps ∧
      guaranteedWrite disk (volumesOn volToDev dev vols) ≤ disk.ga.outBps ∧
      guaranteedRead disk (volumesOn volToDev dev vols) +
        guaranteedWrite disk (volumesOn volToDev dev vols) ≤ disk.ga.total
  storage : ∀ dev disk, devices.lookup dev = some disk →
    (∃ key info, allocation.lookup key = some info ∧ info.devID = dev) →
    newStorage allocation dev ≤ disk.capacity - disk.requestedDiskSpace

/-- Neither a disk nor a volume has a negative bandwidth. -/
structure NonNegRates (devices : Disks) (vols : List PackVolume) : Prop where
  disks : ∀ dev disk, devices.lookup dev = some disk →
    0 ≤ disk.ga.inBps ∧ 0 ≤ disk.ga.outBps ∧ 0 ≤ disk.ga.total
  volumes : ∀ v ∈ vols, 0 ≤ v.rawRead ∧ 0 ≤ v.rawWrite

theorem pack_sound {p : FirstFitPacker} {sorted : List PackVolume}
    (hnames : (vols.map (·.name)).Nodup) (hpvcs : (vols.map (·.pvcName)).Nodup)
    (hnonneg : NonNegRates devices vols) (hord : SortedFor devices vols devs sorted)
    (h : p.pack devices devs sorted = some (volToDev, allocation)) :
    PackSound devices vols volToDev allocation := by
  have hperm := hord.vols_perm
  have hnames' := (hperm.map (·.name)).nodup_iff.mpr hnames
  have hpvcs' := (hperm.map (·.pvcName)).nodup_iff.mpr hpvcs
  have hfresh : ∀ v ∈ sorted, v.pvcName ∉ (∅ : Dict String PVCInfo) := fun _ _ => notMem_empty
  obtain ⟨place, hin, hvols, hclaims⟩ := packLoop_spec hnames' hpvcs' hfresh h
  have hplace : ∀ v ∈ vols, volToDev.lookup v.name = some (place v.name) := fun v hv =>
    hvols.entered _ _ (mem_map.mpr ⟨v, hperm.mem_iff.mpr hv, rfl⟩)
  have hfits := fun dev disk (hdisk : devices.lookup dev = some disk) =>
    packLoop_fits hnames' hpvcs' hfresh h hdisk (lookup_addDevices p hdisk)
  have hon : ∀ dev, (volumesOn volToDev dev sorted).Perm (volumesOn volToDev dev vols) :=
    fun dev => hperm.filter _
  refine ⟨?_, ?_, ?_, ?_⟩
  · intro v hv
    exact ⟨place v.name, hin v (hperm.mem_iff.mpr hv), hplace v hv⟩
  · intro v hv
    exact ⟨⟨place v.name, v.size, false⟩, hclaims.entered _ _ ⟨v, hperm.mem_iff.mpr hv, rfl, rfl⟩,
      hplace v hv⟩
  · intro dev disk hdisk
    obtain ⟨hread, hwrite⟩ := guaranteed_perm disk (hon dev)
    rw [← hread, ← hwrite]
    by_cases hsome : ∃ v ∈ volumesOn volToDev dev sorted, v.be = false
    · obtain ⟨hr, hw, ht, -⟩ := (hfits dev disk hdisk).guaranteed hsome
      exact ⟨hr, hw, ht⟩
    obtain ⟨hr, hw⟩ := guaranteed_bestEffort disk hsome
    obtain ⟨h1, h2, h3⟩ := hnonneg.disks dev disk hdisk
    rw [hr, hw, add_zero]
    exact ⟨h1, h2, h3⟩
  · rintro dev disk hdisk ⟨key, info, hkey, rfl⟩
    obtain ⟨v, hv, -, rfl⟩ := (hclaims.lookup_iff key info).mp hkey
    have hmem : v ∈ volumesOn volToDev (place v.name) sorted := by
      rw [volumesOn, mem_filter]
      exact ⟨hv, by simpa using hplace v (hperm.mem_iff.mp hv)⟩
    have hstorage := (hfits _ disk hdisk).storage (ne_nil_of_mem hmem)
    rw [packLoop_storage hnames' hpvcs' hfresh h]
    simpa [newStorage, packDeviceOf] using hstorage

/-! ## Volumes that share a claim -/

/-- A disk that takes best-effort volumes only, or guaranteed ones only. -/
def splitDisk (name : String) (onlyBe : Bool) : DiskInfo :=
  { ga := { IOPoolStatus.zero with underPressure := onlyBe }
    be := { total := 1, inBps := 1, outBps := 1, underPressure := !onlyBe, num := 0 }
    diskName := name, readRatio := [], writeRatio := [], beDefaultRead := 0, beDefaultWrite := 0
    capacity := 0, requestedDiskSpace := 0, mountPath := "" }

def splitDisks : Disks :=
  ((∅ : Disks).insert "b" (splitDisk "b" false)).insert "a" (splitDisk "a" true)

/-- It asks for nothing, and so fits wherever its class is welcome. -/
def Weightless (v : PackVolume) : Prop := v.size = 0 ∧ v.rawRead = 0 ∧ v.rawWrite = 0

theorem packOn_weightless (h : Weightless v) (d : PackDevice) (disk : DiskInfo) :
    packOn d v disk = d := by
  obtain ⟨hsize, hread, hwrite⟩ := h
  cases hbe : v.be with
  | true => simp [packOn_be hbe, hsize]
  | false => simp [packOn_guaranteed hbe, hsize, PackVolume.transRead, PackVolume.transWrite, hread,
      hwrite]

/-- What the packer knows of the two disks, before and after weightless volumes. -/
def SplitState (ds : Dict String PackDevice) : Prop :=
  ds.lookup "a" = some (packDeviceOf (splitDisk "a" true)) ∧
    ds.lookup "b" = some (packDeviceOf (splitDisk "b" false))

theorem firstFit_split (hv : Weightless v) (hds : SplitState ds) : ∃ ds', SplitState ds' ∧
      firstFit splitDisks v ["a", "b"] ds = some (if v.be then "a" else "b", ds') := by
  obtain ⟨ha, hb⟩ := hds
  have hla : splitDisks.lookup "a" = some (splitDisk "a" true) := lookup_insert _
  have hlb : splitDisks.lookup "b" = some (splitDisk "b" false) := by
    rw [splitDisks, lookup_insert_ite, if_neg (by decide), lookup_insert]
  cases hbe : v.be with
  | true =>
    have hfit : canFit (packDeviceOf (splitDisk "a" true)) v (splitDisk "a" true) = true := by
      rw [canFit_be hbe, hv.1]
      refine ⟨?_, by decide⟩
      simp [BeRoom, packDeviceOf, splitDisk, DiskInfo.beMin]
    refine ⟨ds.insert "a" (packDeviceOf (splitDisk "a" true)), ⟨lookup_insert _, ?_⟩, ?_⟩
    · rw [lookup_insert_ite, if_neg (by decide)]
      exact hb
    · simp only [firstFit, hla, ha, hfit, if_true, packOn_weightless hv]
  | false =>
    have hno : canFit (packDeviceOf (splitDisk "a" true)) v (splitDisk "a" true) = false := by
      rw [Bool.eq_false_iff]
      intro hfit
      have hpressure := ((canFit_guaranteed hbe).mp hfit).2.2.2.2
      simp [packDeviceOf, splitDisk] at hpressure
    have hfit : canFit (packDeviceOf (splitDisk "b" false)) v (splitDisk "b" false) = true := by
      rw [canFit_guaranteed hbe, hv.1]
      simp [PackVolume.transRead, PackVolume.transWrite, hv.2.1, hv.2.2, packDeviceOf, splitDisk,
        IOPoolStatus.zero]
    refine ⟨ds.insert "b" (packDeviceOf (splitDisk "b" false)), ⟨?_, lookup_insert _⟩, ?_⟩
    · rw [lookup_insert_ite, if_neg (by decide)]
      exact ha
    · simp only [firstFit, hla, hlb, ha, hb, hno, hfit, if_true, Bool.false_eq_true, if_false,
        packOn_weightless hv]

theorem packLoop_split (hnames : (vols.map (·.name)).Nodup) (hvols : ∀ v ∈ vols, Weightless v)
    (hds : SplitState ds) (volToDev : Dict String String) (allocation : Dict String PVCInfo) :
    ∃ volToDev' allocation',
      packLoop splitDisks ["a", "b"] vols ds volToDev allocation = some (volToDev', allocation') ∧
      (∀ v ∈ vols, volToDev'.lookup v.name = some (if v.be then "a" else "b")) ∧
      ∀ x, x ∉ vols.map (·.name) → volToDev'.lookup x = volToDev.lookup x := by
  induction vols generalizing ds volToDev allocation with
  | nil => exact ⟨volToDev, allocation, rfl, by simp, fun _ _ => rfl⟩
  | cons vol vols ih =>
    rw [map_cons, nodup_cons] at hnames
    rw [forall_mem_cons] at hvols
    obtain ⟨ds', hds', hfit⟩ := firstFit_split hvols.1 hds
    obtain ⟨volToDev', allocation', hloop, hmapped, hkept⟩ := ih hnames.2 hvols.2 hds'
      (volToDev.insert vol.name (if vol.be then "a" else "b"))
      (allocation.insert vol.pvcName ⟨if vol.be then "a" else "b", vol.size, false⟩)
    refine ⟨volToDev', allocation', by rw [packLoop, hfit]; exact hloop, ?_, ?_⟩
    · rw [forall_mem_cons]
      exact ⟨by rw [hkept vol.name hnames.1, lookup_insert], hmapped⟩
    · intro x hx
      rw [map_cons, mem_cons, not_or] at hx
      rw [hkept x hx.2, lookup_insert_ite, if_neg hx.1]

/-- A volume for the `k`th claim; only the one at `i` is best effort. -/
def splitVolume (i k : Nat) (claim : String) : PackVolume :=
  { name := String.ofList (List.replicate k 'v'), pvcName := claim, be := decide (k = i)
    rawRead := 0, rawWrite := 0, blockSizeRead := ⟨0, some 0⟩, blockSizeWrite := ⟨0, some 0⟩
    size := 0 }

def splitVolumes (i : Nat) (claims : List String) : List PackVolume := claims.mapIdx (splitVolume i)

theorem splitVolumes_claims (i : Nat) (claims : List String) :
    (splitVolumes i claims).map (·.pvcName) = claims := by
  apply ext_getElem?
  intro k
  simp only [splitVolumes, getElem?_map, getElem?_mapIdx, Option.map_map]
  cases claims[k]? with
  | none | some => rfl

theorem splitVolumes_names (i : Nat) (claims : List String) :
    ((splitVolumes i claims).map (·.name)).Nodup := by
  rw [nodup_iff_pairwise_ne, pairwise_iff_getElem]
  intro k l hk hl hkl heq
  simp only [splitVolumes, getElem_map, getElem_mapIdx, splitVolume] at heq
  have hlen := congrArg (fun x => x.toList.length) heq
  simp at hlen
  omega

theorem mem_splitVolumes {k : Nat} (h : claims[k]? = some claim) :
    splitVolume i k claim ∈ splitVolumes i claims := by
  refine mem_of_getElem? (i := k) ?_
  simp [splitVolumes, h]

theorem weightless_splitVolumes : ∀ v ∈ splitVolumes i claims, Weightless v := by
  intro v hv
  obtain ⟨k, hk, rfl⟩ := mem_mapIdx.mp hv
  exact ⟨rfl, rfl, rfl⟩

/-- Two volumes of one claim, of different classes, are put on different disks. -/
theorem not_sound_of_shared (claims : List String) {j : Nat} (hij : i < j)
    (hi : claims[i]? = some claim) (hj : claims[j]? = some claim) :
    ∃ volToDev allocation,
      FirstFitPacker.pack ⟨∅⟩ splitDisks ["a", "b"] (splitVolumes i claims) =
        some (volToDev, allocation) ∧
      ¬ PackSound splitDisks (splitVolumes i claims) volToDev allocation := by
  have hds : SplitState (FirstFitPacker.addDevices ⟨∅⟩ splitDisks).devices := by
    refine ⟨lookup_addDevices _ (lookup_insert _), lookup_addDevices _ ?_⟩
    rw [splitDisks, lookup_insert_ite, if_neg (by decide), lookup_insert]
  obtain ⟨volToDev, allocation, hpack, hmapped, -⟩ := packLoop_split (splitVolumes_names i claims)
    weightless_splitVolumes hds ∅ ∅
  refine ⟨volToDev, allocation, hpack, fun hsound => ?_⟩
  -- the claim has one disk, but its volumes are on two
  obtain ⟨info, hinfo, hdev⟩ := hsound.agrees _ (mem_splitVolumes (i := i) hi)
  obtain ⟨info', hinfo', hdev'⟩ := hsound.agrees _ (mem_splitVolumes (i := i) hj)
  rw [hmapped _ (mem_splitVolumes hi)] at hdev
  rw [hmapped _ (mem_splitVolumes hj)] at hdev'
  have hsame : info = info' := some.inj (hinfo.symm.trans hinfo')
  subst hsame
  rw [← hdev'] at hdev
  have hne : j ≠ i := Nat.ne_of_gt hij
  simp [splitVolume, hne] at hdev

theorem sortedFor_split (vols : List PackVolume) (hvols : ∀ v ∈ vols, Weightless v) :
    SortedFor splitDisks vols ["a", "b"] vols := by
  refine ⟨by decide +kernel, by decide +kernel, Perm.refl _, ?_⟩
  refine pairwise_of_forall_mem_list fun v hv w hw => ?_
  simp [PackVolume.getVolume, (hvols v hv).1, (hvols w hw).1]

theorem nonNegRates_split (hvols : ∀ v ∈ vols, Weightless v) : NonNegRates splitDisks vols := by
  refine ⟨fun dev disk hdisk => ?_, fun v hv => ?_⟩
  · rw [splitDisks, lookup_insert_ite, lookup_insert_ite] at hdisk
    split_ifs at hdisk
    · cases hdisk
      simp [splitDisk, IOPoolStatus.zero]
    · cases hdisk
      simp [splitDisk, IOPoolStatus.zero]
    · simp at hdisk
  · simp [(hvols v hv).2.1, (hvols v hv).2.2]

/-- The packer keeps its promise for all disks and all volumes of these claims, whatever it was used
for before and however its sorts order equal keys, exactly if no two volumes share a claim. -/
theorem pack_sound_iff (claims : List String) :
    (∀ (p : FirstFitPacker) (devices : Disks) (vols sorted : List PackVolume) (devs : List String)
      (volToDev : Dict String String) (allocation : Dict String PVCInfo),
      vols.map (·.pvcName) = claims → (vols.map (·.name)).Nodup → NonNegRates devices vols →
      SortedFor devices vols devs sorted →
      p.pack devices devs sorted = some (volToDev, allocation) →
      PackSound devices vols volToDev allocation) ↔ claims.Nodup := by
  constructor
  · intro hall
    by_contra hdup
    rw [nodup_iff_getElem?_ne_getElem?] at hdup
    push Not at hdup
    obtain ⟨i, j, hij, hj, heq⟩ := hdup
    obtain ⟨volToDev, allocation, hpack, hbad⟩ := not_sound_of_shared claims hij
      (heq.trans (getElem?_eq_getElem hj)) (getElem?_eq_getElem hj)
    exact hbad (hall ⟨∅⟩ splitDisks (splitVolumes i claims) (splitVolumes i claims) ["a", "b"] volToDev
      allocation (splitVolumes_claims i claims) (splitVolumes_names i claims)
      (nonNegRates_split weightless_splitVolumes) (sortedFor_split _ weightless_splitVolumes) hpack)
  · rintro hclaims p devices vols sorted devs volToDev allocation rfl hnames hnonneg hord h
    exact pack_sound hnames hclaims hnonneg hord h

/-- A disk with as much left in each direction and ten units of space. -/
def halfFreeDisk (name : String) (free : ℚ) : DiskInfo :=
  { ga := { total := 2 * free, inBps := free, outBps := free, underPressure := false, num := 0 }
    be := IOPoolStatus.zero
    diskName := name, readRatio := [], writeRatio := [], beDefaultRead := 0, beDefaultWrite := 0
    capacity := 20, requestedDiskSpace := 10, mountPath := "" }

def halfFreeDisks : Disks :=
  ((∅ : Disks).insert "b" (halfFreeDisk "b" 50)).insert "a" (halfFreeDisk "a" 100)

/-- Two volumes of a pod that mount the same claim of ten units. -/
def sharedVolumes : List PackVolume :=
  [{ name := "data", pvcName := "claim.ns", be := false, rawRead := 60, rawWrite := 60
     blockSizeRead := defaultBlockSize, blockSizeWrite := defaultBlockSize, size := 10 },
   { name := "logs", pvcName := "claim.ns", be := false, rawRead := 10, rawWrite := 10
     blockSizeRead := defaultBlockSize, blockSizeWrite := defaultBlockSize, size := 10 }]

theorem not_alwaysSound : ¬ ∀ (p : FirstFitPacker) (devices : Disks) (vols sorted : List PackVolume)
    (devs : List String) (volToDev : Dict String String) (allocation : Dict String PVCInfo),
    (vols.map (·.name)).Nodup → NonNegRates devices vols → SortedFor devices vols devs sorted →
    p.pack devices devs sorted = some (volToDev, allocation) →
    PackSound devices vols volToDev allocation := by
  intro hall
  obtain ⟨⟨volToDev, allocation⟩, hpack, hdata, info', hinfo', hb⟩ :
      ∃ r ∈ FirstFitPacker.pack ⟨∅⟩ halfFreeDisks ["a", "b"] sharedVolumes,
        r.1.lookup "data" = some "a" ∧ ∃ info ∈ r.2.lookup "claim.ns", info.devID = "b" := by
    decide +kernel
  have hnonneg : NonNegRates halfFreeDisks sharedVolumes := by
    refine ⟨fun dev disk hdisk => ?_, by decide +kernel⟩
    rw [halfFreeDisks, lookup_insert_ite, lookup_insert_ite] at hdisk
    split_ifs at hdisk
    · cases hdisk; decide +kernel
    · cases hdisk; decide +kernel
    · simp at hdisk
  have hord : SortedFor halfFreeDisks sharedVolumes ["a", "b"] sharedVolumes :=
    ⟨by decide +kernel, by decide +kernel, Perm.refl _, by decide +kernel⟩
  have hsound := hall ⟨∅⟩ halfFreeDisks sharedVolumes sharedVolumes ["a", "b"] volToDev allocation
    (by decide) hnonneg hord hpack
  -- the claim was moved to the disk of its second volume
  obtain ⟨info, hinfo, hdev⟩ := hsound.agrees _ mem_cons_self
  rw [mem_unique hinfo hinfo', hb] at hdev
  have hab : some "a" = some "b" := hdata.symm.trans hdev
  simp at hab

end IOIsolation.Sched.BlockIo
