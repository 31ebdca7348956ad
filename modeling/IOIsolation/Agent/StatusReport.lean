import IOIsolation.Agent.Rendezvous
import IOIsolation.Agent.Allocatable
import IOIsolation.Aggr.NodeStatus

/-!
# Agent.StatusReport

The reports of the disk engine and of the network engine: for each device what is left in the
guaranteed pool and in the best-effort pool.

* `reports_divided_iff` — all devices are reported and divided into their pools exactly if there is
  at most one network interface, and the best-effort pool is empty or reads and writes are equally
  fast on every disk.
-/

namespace IOIsolation.Agent

open Lib Finmap Dict Outcome Aggr

structure NicInfo where
  name : String
  sndGroupBPS : ℚ
  rcvGroupBPS : ℚ

/-- The result of `calNicAllocatable`; the limits it sets are left out. -/
structure NicAllocatable where
  send : PerGroup ℚ
  recv : PerGroup ℚ
  pressure : PerGroup Bool

def calNicAllocatable (nicInfos : Dict String NicInfo) (bePool : Int) (e : PodEngine)
    (nicId : String) : Option NicAllocatable :=
  match nicInfos.lookup nicId, e.wgDevices.lookup nicId with
  | some nicInfo, some wgs =>
    let bePoolRatio : ℚ := bePool / 100
    let bePoolSizeSnd := bePoolRatio * nicInfo.sndGroupBPS
    let bePoolSizeRcv := bePoolRatio * nicInfo.rcvGroupBPS
    let (gaIn, gaOut) := calculateGroupBw (wgs .gaIndex).requestPods
    let (btIn, btOut) := calculateGroupBw (wgs .btIndex).requestPods
    let allocIn := nicInfo.rcvGroupBPS - bePoolSizeRcv - gaIn - btIn
    let allocOut := nicInfo.sndGroupBPS - bePoolSizeSnd - gaOut - btOut
    some {
      send := ⟨allocOut, allocOut, bePoolSizeSnd⟩
      recv := ⟨allocIn, allocIn, bePoolSizeRcv⟩
      pressure := ⟨false, false, false⟩ }
  | _, _ => none

/-- The entry of a device. There is none for the burstable pool, which is the guaranteed one. -/
def ioStatus (ga be : IOStatus) : Dict WorkloadQoSType IOStatus :=
  (Finmap.singleton .ga ga : Dict WorkloadQoSType IOStatus).insert .be be

def pressureOf (pressure : Bool) : ℚ := if pressure then 1 else 0

def diskStatus (a : Allocatable) : Dict WorkloadQoSType IOStatus :=
  ioStatus ⟨a.total.ga, a.read.ga, a.write.ga, pressureOf a.pressure.ga⟩
    ⟨a.total.be, a.read.be, a.write.be, pressureOf a.pressure.be⟩

def nicStatus (a : NicAllocatable) : Dict WorkloadQoSType IOStatus :=
  ioStatus ⟨a.recv.ga + a.send.ga, a.recv.ga, a.send.ga, pressureOf a.pressure.ga⟩
    ⟨a.recv.be + a.send.be, a.recv.be, a.send.be, pressureOf a.pressure.be⟩

/-- One turn of the loop over the disks. A device without groups has no slices to index. -/
def reportDisk (diskInfos : DiskInfos) (bePool : Int) (e : PodEngine) ( diskIO : IOBandwidth)
    (diskId : String) : Outcome IOBandwidth := do
  let a ← ofOption (calDiskAllocatable diskInfos bePool e diskId)
  return { diskIO with deviceBwInfo := diskIO.deviceBwInfo.insert diskId (diskStatus a) }

/-- One turn of the loop over the interfaces makes the map anew. -/
def reportNic (nicInfos : Dict String NicInfo) (bePool : Int) (e : PodEngine) (_ : IOBandwidth)
    (nicId : String) : Outcome IOBandwidth := do
  let a ← ofOption (calNicAllocatable nicInfos bePool e nicId)
  return ⟨.networkIo, Finmap.singleton nicId (nicStatus a)⟩

def updateLocalNodeDiskStatusIOInfo (diskInfos : DiskInfos) (bePool : Int) (e : PodEngine)
    (order : List String) : Outcome IOBandwidth :=
  order.foldlM (reportDisk diskInfos bePool e) ⟨.diskIo, ∅⟩

def updateLocalNodeNICStatusIOInfo (nicInfos : Dict String NicInfo) (bePool : Int) (e : PodEngine)
    (order : List String) : Outcome IOBandwidth :=
  order.foldlM (reportNic nicInfos bePool e) ⟨.all, ∅⟩

/-- What the guaranteed and the burstable pods of a device request. -/
def requested (wgs : WorkloadGroups) : ℚ × ℚ :=
  calculateGroupBw (wgs .gaIndex).requestPods + calculateGroupBw (wgs .btIndex).requestPods

/-- The report has the device, and in both directions the pools of its entry and the requests come
to its capacity. -/
def Divided (r : IOBandwidth) (id : String) (capIn capOut : ℚ) (wgs : WorkloadGroups) : Prop :=
  ∃ st ga be, r.deviceBwInfo.lookup id = some st ∧ st.lookup .ga = some ga ∧
    st.lookup .be = some be ∧ ga.inBps + (requested wgs).1 + be.inBps = capIn ∧
    ga.outBps + (requested wgs).2 + be.outBps = capOut

def DisksDivided (diskInfos : DiskInfos) (bePool : Int) (e : PodEngine) (order : List String) : Prop :=
  ∃ r, updateLocalNodeDiskStatusIOInfo diskInfos bePool e order = .done r ∧
    ∀ id info wgs, diskInfos.lookup id = some info → e.wgDevices.lookup id = some wgs →
      Divided r id info.totalRBPS info.totalWBPS wgs

def NicsDivided (nicInfos : Dict String NicInfo) (bePool : Int) (e : PodEngine)
    (order : List String) : Prop :=
  ∃ r, updateLocalNodeNICStatusIOInfo nicInfos bePool e order = .done r ∧
    ∀ id info wgs, nicInfos.lookup id = some info → e.wgDevices.lookup id = some wgs →
      Divided r id info.rcvGroupBPS info.sndGroupBPS wgs

variable {bePool nicPool : Int} {e e' : PodEngine} {id : String} {wgs : WorkloadGroups}
  {diskInfos : DiskInfos} {nicInfos : Dict String NicInfo} {order nicOrder : List String}
  {r r' : IOBandwidth} {ga be : IOStatus}

theorem divided_iff {capIn capOut : ℚ} (hr : r.deviceBwInfo.lookup id = some (ioStatus ga be)) :
    Divided r id capIn capOut wgs ↔ ga.inBps + (requested wgs).1 + be.inBps = capIn ∧
      ga.outBps + (requested wgs).2 + be.outBps = capOut := by
  simp [Divided, hr, ioStatus]

theorem reportDisk_run (h : ∀ id ∈ order, ∃ a, calDiskAllocatable diskInfos bePool e id = some a)
    (r : IOBandwidth) :
    ∃ r', order.foldlM (reportDisk diskInfos bePool e) r = .done r' ∧
      ∀ id, r'.deviceBwInfo.lookup id = if id ∈ order then
        (calDiskAllocatable diskInfos bePool e id).map diskStatus else r.deviceBwInfo.lookup id := by
  induction order generalizing r with
  | nil => exact ⟨r, rfl, by simp⟩
  | cons x order ih =>
    obtain ⟨⟨a, ha⟩, h⟩ := List.forall_mem_cons.mp h
    obtain ⟨r', hrun, hr'⟩ := ih h { r with deviceBwInfo := r.deviceBwInfo.insert x (diskStatus a) }
    refine ⟨r', by rw [List.foldlM_cons, reportDisk, ha]; exact hrun, fun id => ?_⟩
    rw [hr', lookup_insert_ite]
    by_cases hx : id = x
    · simp [hx, ha]
    · simp [hx]

/-- The report has one of the interfaces of the loop only. -/
theorem reportNic_run (h : ∀ id ∈ order, ∃ a, calNicAllocatable nicInfos bePool e id = some a)
    (r : IOBandwidth) :
    ∃ r', order.foldlM (reportNic nicInfos bePool e) r = .done r' ∧ (order = [] ∨
      ∃ nic ∈ order, ∃ a, calNicAllocatable nicInfos bePool e nic = some a ∧
        r'.deviceBwInfo = Finmap.singleton nic (nicStatus a)) := by
  induction order generalizing r with
  | nil => exact ⟨r, rfl, .inl rfl⟩
  | cons x order ih =>
    obtain ⟨⟨a, ha⟩, h⟩ := List.forall_mem_cons.mp h
    obtain ⟨r', hrun, hr'⟩ := ih h ⟨.networkIo, Finmap.singleton x (nicStatus a)⟩
    refine ⟨r', by rw [List.foldlM_cons, reportNic, ha]; exact hrun, .inr ?_⟩
    rcases hr' with rfl | ⟨nic, hnic, hr'⟩
    · cases hrun
      exact ⟨x, List.mem_cons_self, a, ha, rfl⟩
    · exact ⟨nic, List.mem_cons_of_mem _ hnic, hr'⟩

theorem disksDivided_iff (hwgs : ∀ id ∈ diskInfos, id ∈ e.wgDevices)
    (horder : ∀ id, id ∈ order ↔ id ∈ diskInfos) :
    DisksDivided diskInfos bePool e order ↔ bePool = 0 ∨ ∀ id info,
      diskInfos.lookup id = some info → info.totalRBPS = info.totalWBPS := by
  have hsome : ∀ id ∈ order, ∃ a, calDiskAllocatable diskInfos bePool e id = some a := by
    intro id hid
    obtain ⟨info, hinfo⟩ := mem_iff.mp ((horder id).mp hid)
    obtain ⟨wgs, hw⟩ := mem_iff.mp (hwgs id ((horder id).mp hid))
    exact ⟨_, by rw [calDiskAllocatable, hinfo, hw]⟩
  obtain ⟨r, hrun, hr⟩ := reportDisk_run hsome ⟨.diskIo, ∅⟩
  have hdisk : ∀ id info wgs, diskInfos.lookup id = some info → e.wgDevices.lookup id = some wgs →
      (Divided r id info.totalRBPS info.totalWBPS wgs ↔
        bePool = 0 ∨ info.totalRBPS = info.totalWBPS) := by
    intro id info wgs hinfo hw
    rw [divided_iff (by
      rw [hr, if_pos ((horder id).mpr (mem_of_lookup_eq_some hinfo)), calDiskAllocatable, hinfo, hw]
      rfl)]
    -- the pools are swapped, which makes no difference exactly if they are equal
    have hpool : (bePool : ℚ) / 100 * info.totalRBPS = bePool / 100 * info.totalWBPS ↔
        bePool = 0 ∨ info.totalRBPS = info.totalWBPS := by
      rw [mul_eq_mul_left_iff, or_comm]
      simp
    rw [← hpool]
    dsimp only [requested, calculateGroupBw, Prod.fst_add, Prod.snd_add]
    exact ⟨fun h => by linarith [h.1], fun h => ⟨by linarith, by linarith⟩⟩
  simp only [← forall_or_left]
  constructor
  · rintro ⟨r', hrun', hr'⟩ id info hinfo
    obtain rfl := done.inj (hrun.symm.trans hrun')
    obtain ⟨wgs, hw⟩ := mem_iff.mp (hwgs id (mem_of_lookup_eq_some hinfo))
    exact (hdisk id info wgs hinfo hw).mp (hr' id info wgs hinfo hw)
  · exact fun h => ⟨r, hrun, fun id info wgs hinfo hw =>
      (hdisk id info wgs hinfo hw).mpr (h id info hinfo)⟩

theorem nicsDivided_iff (hwgs : ∀ id ∈ nicInfos, id ∈ e.wgDevices)
    (horder : ∀ id, id ∈ order ↔ id ∈ nicInfos) :
    NicsDivided nicInfos bePool e order ↔ ∀ id ∈ nicInfos, ∀ id' ∈ nicInfos, id = id' := by
  have hsome : ∀ id ∈ order, ∃ a, calNicAllocatable nicInfos bePool e id = some a := by
    intro id hid
    obtain ⟨info, hinfo⟩ := mem_iff.mp ((horder id).mp hid)
    obtain ⟨wgs, hw⟩ := mem_iff.mp (hwgs id ((horder id).mp hid))
    exact ⟨_, by rw [calNicAllocatable, hinfo, hw]⟩
  obtain ⟨r, hrun, hlast⟩ := reportNic_run hsome ⟨.all, ∅⟩
  rcases hlast with rfl | ⟨nic, hnic, a, ha, hr⟩
  · have hnone : ∀ id, id ∉ nicInfos := fun id hid => List.not_mem_nil ((horder id).mpr hid)
    exact iff_of_true ⟨r, hrun, fun id info wgs hinfo => absurd (mem_of_lookup_eq_some hinfo)
      (hnone id)⟩ fun id hid => absurd hid (hnone id)
  constructor
  · rintro ⟨r', hrun', hr'⟩
    obtain rfl := done.inj (hrun.symm.trans hrun')
    -- an interface that is reported is the one visited last
    have hall : ∀ id ∈ nicInfos, id = nic := by
      intro id hid
      obtain ⟨info, hinfo⟩ := mem_iff.mp hid
      obtain ⟨wgs, hw⟩ := mem_iff.mp (hwgs id hid)
      obtain ⟨st, _, _, hst, -⟩ := hr' id info wgs hinfo hw
      rw [hr] at hst
      simpa using mem_of_lookup_eq_some hst
    exact fun id hid id' hid' => (hall id hid).trans (hall id' hid').symm
  · refine fun hone => ⟨r, hrun, fun id info wgs hinfo hw => ?_⟩
    obtain rfl := hone nic ((horder nic).mp hnic) id (mem_of_lookup_eq_some hinfo)
    rw [calNicAllocatable, hinfo, hw] at ha
    rw [divided_iff (by rw [hr, lookup_singleton_eq, ← Option.some.inj ha]; rfl)]
    dsimp only [requested, calculateGroupBw, Prod.fst_add, Prod.snd_add]
    exact ⟨by ring, by ring⟩

theorem reports_divided_iff (hwgs : ∀ id ∈ diskInfos, id ∈ e.wgDevices)
    (horder : ∀ id, id ∈ order ↔ id ∈ diskInfos) (hnicWgs : ∀ id ∈ nicInfos, id ∈ e'.wgDevices)
    (hnicOrder : ∀ id, id ∈ nicOrder ↔ id ∈ nicInfos) :
    DisksDivided diskInfos bePool e order ∧ NicsDivided nicInfos nicPool e' nicOrder ↔
      (bePool = 0 ∨ ∀ id info, diskInfos.lookup id = some info →
        info.totalRBPS = info.totalWBPS) ∧ ∀ id ∈ nicInfos, ∀ id' ∈ nicInfos, id = id' := by
  rw [disksDivided_iff hwgs horder, nicsDivided_iff hnicWgs hnicOrder]

/-- A disk that reads twice as fast as it writes. -/
def fastReads : DiskInfos :=
  Finmap.singleton "sda" ⟨"sda", "8:0", "", "/mnt", "", 150, 100, 50, ∅, ∅⟩

def fastNic (id : String) : Dict String NicInfo := Finmap.singleton id ⟨id, 1000, 2000⟩

theorem reports_divided_single :
    DisksDivided fastReads 0 (.fresh ∅ ["sda"] ∅ []) ["sda"] ∧
      NicsDivided (fastNic "eth0") 10 (.fresh ∅ ["eth0"] ∅ []) ["eth0"] :=
  (reports_divided_iff (by simp [fastReads, PodEngine.fresh]) (by simp [fastReads])
    (by simp [fastNic, PodEngine.fresh]) (by simp [fastNic])).mpr ⟨.inl rfl, by simp [fastNic]⟩

/-- Of a disk with 100 for reading, 90 and 5 are reported, and of two interfaces only one. -/
theorem reports_not_divided :
    ¬ DisksDivided fastReads 10 (.fresh ∅ ["sda"] ∅ []) ["sda"] ∧
      ¬ NicsDivided (fastNic "eth0" ∪ fastNic "eth1") 10 (.fresh ∅ ["eth0", "eth1"] ∅ [])
        ["eth0", "eth1"] := by
  rw [disksDivided_iff (by simp [fastReads, PodEngine.fresh]) (by simp [fastReads]),
    nicsDivided_iff (by simp [fastNic, PodEngine.fresh]) (by simp [fastNic])]
  constructor
  · rintro (hpool | hequal)
    · cases hpool
    · exact absurd (hequal "sda" _ lookup_singleton_eq) (by decide +kernel)
  · intro hone
    exact absurd (hone "eth0" (by simp [fastNic]) "eth1" (by simp [fastNic])) (by decide)

end IOIsolation.Agent
