import IOIsolation.Sched.Accounting
import IOIsolation.Sched.Admission
import IOIsolation.Sched.NetworkIo

/-!
# Sched.Overcommit

Serial scheduling on one node: every pod is reserved right after `CanAdmitPod` accepted it in the
same state. Then no disk, and not the master network card, is ever over-committed.

* `BlockIo.step_sound`, `NetworkIo.step_sound` — a cycle keeps the guaranteed requests within
  their share of the capacity.
* `BlockIo.step_above`, `NetworkIo.step_above` — a cycle keeps the best-effort shares above the
  minimum, from the first admission of a best-effort pod on.
* `no_overcommit` — both, along every run.
-/

namespace IOIsolation.Sched

open Lib ResourceIOContext

variable {dev : String} {t : IOType}

theorem reserved_insert {uid : String} {e : PodRequest} {pods : Dict String PodRequest}
    (h : uid ∉ pods) :
    reserved t dev (pods.insert uid e) = podDemand t dev e.request + reserved t dev pods :=
  Dict.total_insert h

theorem reserved_erase {uid : String} {e : PodRequest} {pods : Dict String PodRequest}
    (h : pods.lookup uid = some e) :
    reserved t dev (pods.erase uid) = reserved t dev pods - podDemand t dev e.request :=
  Dict.total_erase h

theorem reserved_enter {reqs : List IOResourceRequest} {pod : Pod} {pods : Dict String PodRequest}
    (h : pod.uid ∉ pods) :
    reserved t dev (enter pods reqs pod) = reserved t dev pods + podDemand t dev reqs := by
  unfold enter
  split
  · rename_i hnil; simp [hnil]
  · rw [reserved_insert h, add_comm]

namespace BlockIo

variable {disks : Disks} {nodeName : String}

theorem admitAll_ok {es : List (Sigma fun _ : String => DiskRequest)}
    (h : admitAll nodeName disks es = .done (.ok ())) :
    ∀ e ∈ es, ∃ disk, disks.lookup e.1 = some disk ∧
      admitDevice "BlockIOHandle" nodeName disk.toPools disk.beMin e.2.ioRequest =
        .done (.ok ()) ∧ e.2.storageRequest ≤ disk.capacity - disk.requestedDiskSpace := by
  induction es with
  | nil => intro e he; cases he
  | cons x es ih =>
    obtain ⟨dev, req⟩ := x
    unfold admitAll at h
    cases hl : disks.lookup dev with
    | none => simp [hl] at h
    | some disk =>
      simp only [hl, fl_exact, truncInt_intCast] at h
      split at h
      · cases h
      rename_i hspace
      rw [Outcome.bind_eq_done] at h
      obtain ⟨r, hr, h⟩ := h
      cases r with
      | error err => cases h
      | ok u =>
        intro e he
        rcases List.mem_cons.mp he with rfl | he
        · exact ⟨disk, hl, hr, not_lt.mp hspace⟩
        · exact ih h e he

/-- A scheduling cycle: `CanAdmitPod` accepts the non-negative request in the state in which it
is then added. Any reserved pod may be removed. -/
def Cycle (s : State) : Event → Prop
  | .add pod request before after _ =>
    canAdmitPod (Finmap.singleton s.ps.nodeName s.ps) s.ps.nodeName (some request) =
        .done (.ok ()) ∧
      (∀ e ∈ request.resourceRequest.entries, NonNeg (demand e.2.ioRequest)) ∧
      match s.pods with
      | some pods => Addable pods pod request before after
      | none => False
  | .remove pod _ => pod.nodeName = s.ps.nodeName

instance (s : State) : ∀ e, Decidable (Cycle s e)
  | .add pod request before after _ =>
    match h : s.pods with
    | some pods =>
      decidable_of_iff
        (canAdmitPod (Finmap.singleton s.ps.nodeName s.ps) s.ps.nodeName (some request) =
            .done (.ok ()) ∧
          (∀ e ∈ request.resourceRequest.entries, NonNeg (demand e.2.ioRequest)) ∧
          Addable pods pod request before after) (by simp only [Cycle, h])
    | none => isFalse (by simp [Cycle, h])
  | .remove pod _ => decEq pod.nodeName s.ps.nodeName

/-- The entry can be refunded, and asks for no negative bandwidth. -/
def EntryOk (ps0 : Resource) (e : PodRequest) : Prop :=
  Refundable ps0 e ∧ ∀ r ∈ e.request, r.ioType = .diskIo → NonNeg (demand r)

/-- The cache is the recomputed one, and the guaranteed requests are within their share. -/
structure Sound (rc : ResourceConfigSpec) (ps0 : Resource) (s : State)
    (pods : Dict String PodRequest) : Prop where
  accounted : Accounted rc ps0 s pods
  entries : ∀ uid e, pods.lookup uid = some e → EntryOk ps0 e
  within : ∀ dev info, rc.devices.lookup dev = some info →
    Within (100 - rc.bePool) info (reserved .diskIo dev pods)

variable {rc : ResourceConfigSpec} {ps0 : Resource} {s s' : State} {pods : Dict String PodRequest}

theorem Sound.disk (h : Sound rc ps0 s pods) (hconf : Configured rc ps0.info.disksStatus)
    {disk : DiskInfo} (hl : s.ps.info.disksStatus.lookup dev = some disk) :
    ∃ disk0 info, ps0.info.disksStatus.lookup dev = some disk0 ∧
      rc.devices.lookup dev = some info ∧
      disk = disk0.setPools ((initDevice .diskIo rc.bePool dev info ∅ disk0.toPools).take
        (reserved .diskIo dev pods)) := by
  rw [h.accounted.2, Resource.setDisks_disksStatus] at hl
  rw [← computedTotal_eq_reserved fun uid e he => (h.entries uid e he).1.1]
  exact lookup_initDisks hconf hl

theorem entriesDemand_admitted {request : RequestInfo}
    (h : admitAll nodeName disks request.resourceRequest.entries = .done (.ok ())) (dev : String) :
    entriesDemand request.resourceRequest.entries dev = 0 ∧
        (∀ e ∈ request.resourceRequest.entries, e.1 ≠ dev) ∨
      ∃ r disk, ⟨dev, r⟩ ∈ request.resourceRequest.entries ∧ disks.lookup dev = some disk ∧
        entriesDemand request.resourceRequest.entries dev = demand r.ioRequest ∧
        admitDevice "BlockIOHandle" nodeName disk.toPools disk.beMin r.ioRequest =
          .done (.ok ()) := by
  by_cases hdev : dev ∈ request.resourceRequest
  · obtain ⟨r, hr⟩ := Option.isSome_iff_exists.mp (AList.lookup_isSome.mpr hdev)
    have hmem := AList.mem_lookup_iff.mp hr
    obtain ⟨disk, hl, hadm, -⟩ := admitAll_ok h _ hmem
    exact .inr ⟨r, disk, hmem, hl,
      entriesDemand_of_mem request.resourceRequest.nodupKeys hmem, hadm⟩
  · have hne : ∀ e ∈ request.resourceRequest.entries, e.1 ≠ dev := by
      rintro e he rfl
      exact hdev (List.mem_keys_of_mem he)
    exact .inl ⟨entriesDemand_of_not_mem hne, hne⟩

theorem Cycle.admitted {pod : Pod} {request : RequestInfo} {before after : List IOResourceRequest}
    {a : MappingAnswers} (h : Cycle s (.add pod request before after a)) :
    admitAll s.ps.nodeName s.ps.info.disksStatus request.resourceRequest.entries =
      .done (.ok ()) := by
  simpa [canAdmitPod, Finmap.lookup_singleton_eq] using h.1

variable {e : Event}

theorem step_sound (hconf : Configured rc ps0.info.disksStatus)
    (hok : ∀ dev info, rc.devices.lookup dev = some info → ConfigOk rc.bePool info)
    (h : step s e = some s') (hcyc : Cycle s e) (hs : Sound rc ps0 s pods) :
    ∃ pods', Sound rc ps0 s' pods' := by
  cases e with
  | add pod request before after a =>
    have hadm := hcyc.admitted
    obtain ⟨-, hnn, hadd⟩ := hcyc
    simp only [hs.accounted.1] at hadd
    refine ⟨_, step_add_accounted hconf hs.accounted hadd h, ?_, ?_⟩
    · intro uid e he
      rcases lookup_enter he with hold | ⟨-, hnew⟩
      · exact hs.entries uid e hold
      refine ⟨step_add_refundable hs.accounted hadd h hnew, ?_⟩
      intro r hr ht
      rw [hnew] at hr
      obtain ⟨x, hx, rfl, -⟩ := hadd.mem_entry hr ht
      exact hnn x hx
    · intro dev info hinfo
      rw [reserved_enter hadd.new, hadd.podDemand_entry]
      rcases entriesDemand_admitted hadm dev with ⟨hzero, -⟩ | ⟨r, disk, -, hl, hd, hr⟩
      · rw [hzero, add_zero]; exact hs.within dev info hinfo
      obtain ⟨disk0, info', -, hinfo', rfl⟩ := hs.disk hconf hl
      cases hinfo.symm.trans hinfo'
      rw [hd]
      exact within_admit (hok dev info hinfo) (hs.within dev info hinfo) hr
  | remove pod client =>
    refine ⟨_, step_remove_accounted hconf hs.accounted hcyc
      (fun e he => (hs.entries _ e he).1) h, ?_, ?_⟩
    · intro uid e he
      rw [Dict.lookup_erase_ite] at he
      split at he
      · cases he
      · exact hs.entries uid e he
    · intro dev info hinfo
      obtain ⟨e, -, he, -⟩ := step_remove hs.accounted.1 hcyc h
      rw [reserved_erase he]
      exact within_sub (hs.within dev info hinfo) (nonNeg_podDemand (hs.entries _ e he).2)

def Above (dev : String) (s : State) : Prop :=
  ∀ disk, s.ps.info.disksStatus.lookup dev = some disk → BeAbove disk.toPools disk.beMin

def AdmitsBe (dev : String) : Event → Prop
  | .add _ request _ _ _ => ∃ r, ⟨dev, r⟩ ∈ request.resourceRequest.entries ∧
      r.ioRequest.workloadType = .beIndex
  | .remove _ _ => False

theorem Above.of_takeAll {f : String → Demand} (hs' : s'.ps.info.disksStatus = takeAll f disks)
    (h : ∀ disk, disks.lookup dev = some disk → BeAbove (disk.toPools.take (f dev)) disk.beMin) :
    Above dev s' := by
  intro disk hl
  rw [hs', lookup_takeAll] at hl
  obtain ⟨disk0, hl0, rfl⟩ := Option.map_eq_some_iff.mp hl
  exact h disk0 hl0

theorem step_above_of_admitsBe (h : step s e = some s') (hcyc : Cycle s e)
    (hs : Sound rc ps0 s pods) (hbe : AdmitsBe dev e) : Above dev s' := by
  cases e with
  | add pod request before after a =>
    obtain ⟨r, hr, hw⟩ := hbe
    obtain ⟨disk, hl, hadm, -⟩ := admitAll_ok hcyc.admitted _ hr
    obtain ⟨-, hps', -, -⟩ := step_add hs.accounted.1 h
    refine Above.of_takeAll (by rw [hps']; rfl) ?_
    intro disk' hl'
    cases hl.symm.trans hl'
    rw [entriesDemand_of_mem request.resourceRequest.nodupKeys hr]
    exact beAbove_admit hadm hw
  | remove pod client => exact hbe.elim

theorem Sound.beNonneg (hs : Sound rc ps0 s pods) (hconf : Configured rc ps0.info.disksStatus)
    (hok : ∀ dev info, rc.devices.lookup dev = some info → ConfigOk rc.bePool info)
    (hbe : ∀ dev disk0 info, ps0.info.disksStatus.lookup dev = some disk0 →
      rc.devices.lookup dev = some info → disk0.be = beShare rc.bePool info) {disk : DiskInfo}
    (hl : s.ps.info.disksStatus.lookup dev = some disk) : BeNonneg disk.toPools := by
  obtain ⟨disk0, info, hl0, hinfo, rfl⟩ := hs.disk hconf hl
  apply beNonneg_of_beShare (hok dev info hinfo)
  simp [Pools.take, initDevice, hbe dev disk0 info hl0 hinfo, beShare]

theorem step_above (hconf : Configured rc ps0.info.disksStatus)
    (hok : ∀ dev info, rc.devices.lookup dev = some info → ConfigOk rc.bePool info)
    (hbe : ∀ dev disk0 info, ps0.info.disksStatus.lookup dev = some disk0 →
      rc.devices.lookup dev = some info → disk0.be = beShare rc.bePool info)
    (h : step s e = some s') (hcyc : Cycle s e) (hs : Sound rc ps0 s pods) (habove : Above dev s) :
    Above dev s' := by
  cases e with
  | add pod request before after a =>
    obtain ⟨-, hps', -, -⟩ := step_add hs.accounted.1 h
    refine Above.of_takeAll (by rw [hps']; rfl) ?_
    intro disk hl
    rcases entriesDemand_admitted hcyc.admitted dev with
      ⟨hzero, -⟩ | ⟨r, disk', hr, hl', hd, hadm⟩
    · rw [hzero, Pools.take_zero]; exact habove disk hl
    cases hl.symm.trans hl'
    rw [hd]
    by_cases hw : r.ioRequest.workloadType = .beIndex
    · exact beAbove_admit hadm hw
    · refine beAbove_take (hs.beNonneg hconf hok hbe hl) (habove disk hl) ?_
      rw [demand_be_of_ne hw]
  | remove pod client =>
    obtain ⟨e, he, hps', -⟩ := step_remove_disks hconf hs.accounted hcyc
      (fun e he => (hs.entries _ e he).1) h
    refine Above.of_takeAll (f := fun dev => -podDemand .diskIo dev e.request)
      (by rw [hps']; rfl) ?_
    intro disk hl
    refine beAbove_take (hs.beNonneg hconf hok hbe hl) (habove disk hl) ?_
    have := podDemand_be_nonneg .diskIo dev e.request
    simpa using this

/-- The start of serial scheduling: sane capacities, and reserved pods whose guaranteed requests
fit. -/
structure Fits (rc : ResourceConfigSpec) (ps0 : Resource) (l : PodList) : Prop where
  config : ∀ dev info, rc.devices.lookup dev = some info → ConfigOk rc.bePool info
  entries : ∀ uid e, l.podList.lookup uid = some e → EntryOk ps0 e
  within : ∀ dev info, rc.devices.lookup dev = some info →
    Within (100 - rc.bePool) info (reserved .diskIo dev l.podList)

/-- The disks of a node are not over-committed: the guaranteed requests of the reserved pods are
within their share of the capacities, and, once a best-effort pod was admitted, every
best-effort pod keeps more than the disk's minimum. -/
def NotOvercommitted (rc : ResourceConfigSpec) (es : List Event) (s : State) : Prop :=
  ∃ pods, s.pods = some pods ∧ ∀ dev disk info,
    s.ps.info.disksStatus.lookup dev = some disk → rc.devices.lookup dev = some info →
    Within (100 - rc.bePool) info (reserved .diskIo dev pods) ∧
      ((∃ e ∈ es, AdmitsBe dev e) → 0 < (reserved .diskIo dev pods).2.2 →
        disk.beMin.total < disk.be.total / (reserved .diskIo dev pods).2.2 ∧
        disk.beMin.inBps < disk.be.inBps / (reserved .diskIo dev pods).2.2 ∧
        disk.beMin.outBps < disk.be.outBps / (reserved .diskIo dev pods).2.2)

theorem run_notOvercommitted [QuantityParser] {emptyDirDevice : String} {usage : Dict String Int}
    {size : String → Int} {env : Env} {l : PodList} {ps : Resource} {es : List Event}
    (hlist : env.ctx.getReservedPods nodeName = .ok l)
    (hfits : Fits rc (addCacheNodeInfo nodeName rc usage size emptyDirDevice) l)
    (hinit : initNodeStatus (addCacheNodeInfo nodeName rc usage size emptyDirDevice) env.ctx rc =
      .done ps) (hcyc : Along step Cycle ⟨ps, env, []⟩ es)
    (hrun : run step ⟨ps, env, []⟩ es = some s') : NotOvercommitted rc es s' := by
  have hconf := addCacheNodeInfo_configured nodeName rc usage size emptyDirDevice
  have hbe : ∀ dev disk0 info,
      (addCacheNodeInfo nodeName rc usage size emptyDirDevice).info.disksStatus.lookup dev =
        some disk0 → rc.devices.lookup dev = some info → disk0.be = beShare rc.bePool info := by
    intro dev disk0 info hl hinfo
    rw [addCacheNodeInfo, Dict.lookup_mapVals, hinfo] at hl
    cases hl; rfl
  generalize hps0 : addCacheNodeInfo nodeName rc usage size emptyDirDevice = ps0 at *
  have hname : ps0.nodeName = nodeName := by rw [← hps0]; rfl
  subst hname
  have hstart : Sound rc ps0 ⟨ps, env, []⟩ l.podList := by
    have hps : ps = ps0.setDisks (initDisks rc l.podList ps0.info.disksStatus) := by
      simpa [initNodeStatus, hlist, eq_comm] using hinit
    subst hps
    refine ⟨⟨?_, rfl⟩, hfits.entries, hfits.within⟩
    simp [State.pods, getReservedPods_ok.mp hlist]
  have hkeep : ∀ s e t, step s e = some t → Cycle s e → (∃ pods, Sound rc ps0 s pods) →
      ∃ pods, Sound rc ps0 t pods := by
    rintro _ _ _ h hc ⟨_, hs⟩
    exact step_sound hconf hfits.config h hc hs
  obtain ⟨pods, hs'⟩ := run_invariant hkeep ⟨_, hstart⟩ hcyc hrun
  refine ⟨pods, hs'.accounted.1, ?_⟩
  intro dev disk info hl hinfo
  refine ⟨hs'.within dev info hinfo, ?_⟩
  intro hadmits
  have habove : Above dev s' := by
    refine run_established hkeep ?_ ?_ ⟨_, hstart⟩ hcyc hrun hadmits
    · rintro _ _ _ h hc ⟨_, hs⟩
      exact step_above_of_admitsBe h hc hs
    · rintro _ _ _ h hc ⟨_, hs⟩
      exact step_above hconf hfits.config hbe h hc hs
  obtain ⟨disk0, info0, -, -, hdisk⟩ := hs'.disk hconf hl
  have hnum : disk.be.num = (reserved .diskIo dev pods).2.2 := by
    rw [hdisk]; simp [Pools.take, initDevice]
  rw [← hnum]
  exact habove disk hl

end BlockIo
namespace NetworkIo

structure State where
  ps : Resource
  ctx : ResourceIOContext
  deriving DecidableEq

inductive Event where
  | add (pod : Pod) (request : RequestInfo) (before after : List IOResourceRequest)
  | remove (pod : Pod)

def step (s : State) : Event → Option State
  | .add pod request before after =>
    match addPod s.ps (some request) with
    | .done (ps, .added reqs) =>
      some { ps := ps, ctx := s.ctx.record (before ++ reqs ++ after) pod ps.nodeName }
    | _ => none
  | .remove pod =>
    match removePod .ignored s.ps pod s.ctx false with
    | .done (ps, _, .ok ()) => some { ps := ps, ctx := (s.ctx.removePod pod ps.nodeName).1 }
    | _ => none

def State.pods (s : State) : Option (Dict String PodRequest) :=
  (s.ctx.reservedpod.lookup s.ps.nodeName).map (·.podList)

def State.masterNic (s : State) : String := s.ps.info.masterNic

def State.nic (s : State) : Option NICInfo := s.ps.info.nicsStatus.lookup s.masterNic

/-- What may be added: a well-formed request for the master card of a new pod, next to requests
of other types. -/
structure Addable (pods : Dict String PodRequest) (masterNic : String) (pod : Pod)
    (request : RequestInfo) (before after : List IOResourceRequest) : Prop where
  wellFormed : ∀ r, request.lookup masterNic = some r →
    r.ioType = .networkIo ∧ devName r = some masterNic ∧ Schedulable r
  before_other : ∀ r ∈ before, r.ioType ≠ .networkIo
  after_other : ∀ r ∈ after, r.ioType ≠ .networkIo
  new : pod.uid ∉ pods

/-- A scheduling cycle: `CanAdmitPod` accepts the non-negative request in the state in which it
is then added. Any reserved pod may be removed. -/
def Cycle (s : State) : Event → Prop
  | .add pod request before after =>
    canAdmitPod (Finmap.singleton s.ps.nodeName s.ps) s.ps.nodeName (some request) =
        .done (.ok ()) ∧
      (∀ r, request.lookup s.masterNic = some r → NonNeg (demand r)) ∧
      match s.pods with
      | some pods => Addable pods s.masterNic pod request before after
      | none => False
  | .remove pod => pod.nodeName = s.ps.nodeName

instance (pods : Dict String PodRequest) (masterNic : String) (pod : Pod) (request : RequestInfo)
    (before after : List IOResourceRequest) :
    Decidable (Addable pods masterNic pod request before after) :=
  decidable_of_iff ((∀ r ∈ request.lookup masterNic,
        r.ioType = .networkIo ∧ devName r = some masterNic ∧ Schedulable r) ∧
      (∀ r ∈ before, r.ioType ≠ .networkIo) ∧ (∀ r ∈ after, r.ioType ≠ .networkIo) ∧
      pod.uid ∉ pods)
    ⟨fun ⟨h1, h2, h3, h4⟩ => ⟨h1, h2, h3, h4⟩, fun ⟨h1, h2, h3, h4⟩ => ⟨h1, h2, h3, h4⟩⟩

instance (s : State) : ∀ e, Decidable (Cycle s e)
  | .add pod request before after =>
    match h : s.pods with
    | some pods =>
      decidable_of_iff
        (canAdmitPod (Finmap.singleton s.ps.nodeName s.ps) s.ps.nodeName (some request) =
            .done (.ok ()) ∧
          (∀ r ∈ request.lookup s.masterNic, NonNeg (demand r)) ∧
          Addable pods s.masterNic pod request before after) (by simp [Cycle, h])
    | none => isFalse (by simp [Cycle, h])
  | .remove pod => inferInstanceAs (Decidable (pod.nodeName = s.ps.nodeName))

def AdmitsBe (masterNic : String) : Event → Prop
  | .add _ request _ _ => ∃ r, request.lookup masterNic = some r ∧ r.workloadType = .beIndex
  | .remove _ => False

theorem admitAll_ok {nodeName : String} {nics : NICs}
    {es : List (Sigma fun _ : String => IOResourceRequest)}
    (h : admitAll nodeName nics es = .done (.ok ())) :
    ∀ e ∈ es, ∃ nic, nics.lookup e.1 = some nic ∧
      admitDevice "NetworkIOHandle" nodeName nic.toPools nic.beMin e.2 = .done (.ok ()) := by
  induction es with
  | nil => intro e he; cases he
  | cons x es ih =>
    obtain ⟨dev, req⟩ := x
    unfold admitAll at h
    cases hl : nics.lookup dev with
    | none => simp [hl] at h
    | some nic =>
      simp only [hl, Outcome.bind_eq_done] at h
      obtain ⟨r, hr, h⟩ := h
      cases r with
      | error err => cases h
      | ok u =>
        intro e he
        rcases List.mem_cons.mp he with rfl | he
        · exact ⟨nic, hl, hr⟩
        · exact ih h e he

/-- The master card holds what the reserved pods of the node have left of it, and their
guaranteed requests are within the share. -/
structure Sound (bePool : Int) (info : Device) (nic0 : NICInfo) (masterNic : String) (s : State)
    (pods : Dict String PodRequest) : Prop where
  pods_eq : s.pods = some pods
  master : s.masterNic = masterNic
  nic : s.nic = some (nic0.setPools
    ((initDevice .networkIo bePool masterNic info ∅ nic0.toPools).take
      (reserved .networkIo masterNic pods)))
  entries : ∀ uid e, pods.lookup uid = some e → WellFormed .networkIo e.request ∧
    ∀ r ∈ e.request, r.ioType = .networkIo → NonNeg (demand r)
  within : Within (100 - bePool) info (reserved .networkIo masterNic pods)

variable {bePool : Int} {info : Device} {nic0 : NICInfo} {masterNic : String} {s s' : State}
  {pods : Dict String PodRequest} {pod : Pod} {request : RequestInfo}
  {before after : List IOResourceRequest}

theorem step_add (hs : Sound bePool info nic0 masterNic s pods)
    (h : step s (.add pod request before after) = some s')
    (hcyc : Cycle s (.add pod request before after)) :
    ∃ nic r, s.nic = some nic ∧ request.lookup masterNic = some r ∧
      admitDevice "NetworkIOHandle" s.ps.nodeName nic.toPools nic.beMin r = .done (.ok ()) ∧
      s'.masterNic = masterNic ∧ s'.nic = some (nic.setPools (nic.toPools.take (demand r))) ∧
      s'.pods = some (enter pods (before ++ [r] ++ after) pod) := by
  unfold step at h
  cases hadd : addPod s.ps (some request) with
  | panic | deadlock => simp [hadd] at h
  | done x =>
    obtain ⟨ps, res⟩ := x
    cases res with
    | mismatch | failed => simp [hadd] at h
    | added reqs =>
      obtain ⟨nic, r, hnic, hr, rfl, rfl⟩ := addPod_added hadd
      simp only [hadd, Option.some.injEq] at h
      subst h
      obtain ⟨l, hl, hpods⟩ := Option.map_eq_some_iff.mp hs.pods_eq
      have hmaster : s.ps.info.masterNic = masterNic := hs.master
      subst hmaster hpods
      refine ⟨nic, r, hnic, hr, ?_, rfl, ?_, ?_⟩
      · have hadm : admitAll s.ps.nodeName s.ps.info.nicsStatus request.entries =
            .done (.ok ()) := by
          simpa [canAdmitPod, Finmap.lookup_singleton_eq] using hcyc.1
        obtain ⟨nic', hnic', hdev⟩ := admitAll_ok hadm _ (AList.mem_lookup_iff.mp hr)
        cases hnic.symm.trans hnic'
        exact hdev
      · simp [State.nic, State.masterNic, Resource.setNics]
      · obtain ⟨l', hrec, hlist⟩ :=
          lookup_record (before ++ [r] ++ after) pod hl
        simp only [State.pods, Resource.setNics, hrec, Option.map_some, hlist]

theorem step_remove (hs : Sound bePool info nic0 masterNic s pods)
    (h : step s (.remove pod) = some s') (hnode : pod.nodeName = s.ps.nodeName) :
    ∃ nic e, s.nic = some nic ∧ pods.lookup pod.uid = some e ∧ s'.masterNic = masterNic ∧
      s'.nic = some (nic.setPools (nic.toPools.take (-podDemand .networkIo masterNic e.request))) ∧
      s'.pods = some (pods.erase pod.uid) := by
  unfold step at h
  cases hrem : removePod .ignored s.ps pod s.ctx false with
  | panic | deadlock => simp [hrem] at h
  | done x =>
    obtain ⟨ps, held, res⟩ := x
    cases res with
    | error err => simp [hrem] at h
    | ok u =>
      obtain ⟨⟨err, herr⟩, -⟩ | ⟨nic, l, e, pools, hnic, hl, he, hrefund, rfl⟩ := removePod_cases hrem
      · cases herr
      simp only [hrem, Option.some.injEq] at h
      subst h
      have hpods : l.podList = pods := by simpa [State.pods, hl] using hs.pods_eq
      have hmaster : s.ps.info.masterNic = masterNic := hs.master
      subst hmaster hpods
      have hwf := (hs.entries _ e he).1
      have hnum : (podDemand .networkIo s.ps.info.masterNic e.request).2.2 ≤ nic.be.num := by
        cases hnic.symm.trans hs.nic
        have hall : ∀ uid e, l.podList.lookup uid = some e → WellFormed .networkIo e.request :=
          fun uid e he => (hs.entries uid e he).1
        rw [← computed_eq_podDemand hwf, ← computedTotal_eq_reserved hall]
        simpa [Pools.take, initDevice] using computed_be_le_total he
      rw [refundAll_of_wellFormed hwf hnum] at hrefund
      cases hrefund
      refine ⟨nic, e, hnic, he, rfl, ?_, ?_⟩
      · simp [State.nic, State.masterNic, Resource.setNics]
      · have hr := removePod_of_lookup hnode hl
        simp [State.pods, Resource.setNics, hr]

theorem Addable.podDemand_entry (h : Addable pods masterNic pod request before after)
    {r : IOResourceRequest} (hr : request.lookup masterNic = some r) :
    podDemand .networkIo masterNic (before ++ [r] ++ after) = demand r := by
  obtain ⟨ht, hd, -⟩ := h.wellFormed r hr
  rw [podDemand_others h.before_other h.after_other, podDemand_cons, podDemand_nil,
    demandOn_self ht hd, add_zero]

variable {e : Event}

theorem step_sound (hok : ConfigOk bePool info) (h : step s e = some s') (hcyc : Cycle s e)
    (hs : Sound bePool info nic0 masterNic s pods) :
    ∃ pods', Sound bePool info nic0 masterNic s' pods' := by
  cases e with
  | add pod request before after =>
    obtain ⟨nic, r, hnic, hr, hadm, hmaster', hnic', hpods'⟩ := step_add hs h hcyc
    obtain ⟨-, hnn, hadd⟩ := hcyc
    rw [hs.master] at hnn
    simp only [hs.pods_eq, hs.master] at hadd
    obtain ⟨ht, hd, hsch⟩ := hadd.wellFormed r hr
    have hdem := hadd.podDemand_entry hr
    refine ⟨_, hpods', hmaster', ?_, ?_, ?_⟩
    · cases hnic.symm.trans hs.nic
      rw [hnic', reserved_enter hadd.new, hdem]
      simp [Pools.take_take]
    · intro uid e he
      rcases lookup_enter he with hold | ⟨-, hnew⟩
      · exact hs.entries uid e hold
      rw [hnew]
      refine ⟨wellFormed_others hadd.before_other hadd.after_other ⟨by simp [hsch], by simp⟩, ?_⟩
      intro x hx hxt
      simp only [List.mem_append, List.mem_singleton] at hx
      rcases hx with (hx | rfl) | hx
      · exact absurd hxt (hadd.before_other x hx)
      · exact hnn x hr
      · exact absurd hxt (hadd.after_other x hx)
    · cases hnic.symm.trans hs.nic
      rw [reserved_enter hadd.new, hdem]
      exact within_admit hok hs.within hadm
  | remove pod =>
    obtain ⟨nic, e, hnic, he, hmaster', hnic', hpods'⟩ := step_remove hs h hcyc
    refine ⟨_, hpods', hmaster', ?_, ?_, ?_⟩
    · cases hnic.symm.trans hs.nic
      rw [hnic', reserved_erase he, sub_eq_add_neg]
      simp [Pools.take_take]
    · intro uid e' he'
      rw [Dict.lookup_erase_ite] at he'
      split at he'
      · cases he'
      · exact hs.entries uid e' he'
    · rw [reserved_erase he]
      exact within_sub hs.within (nonNeg_podDemand (hs.entries _ e he).2)

def Above (s : State) : Prop := ∀ nic, s.nic = some nic → BeAbove nic.toPools nic.beMin

theorem step_above_of_admitsBe (h : step s e = some s') (hcyc : Cycle s e)
    (hs : Sound bePool info nic0 masterNic s pods) (hbe : AdmitsBe masterNic e) : Above s' := by
  cases e with
  | add pod request before after =>
    obtain ⟨r', hr', hw⟩ := hbe
    obtain ⟨nic, r, hnic, hr, hadm, -, hnic', -⟩ := step_add hs h hcyc
    cases hr.symm.trans hr'
    intro nic2 hnic2
    cases hnic'.symm.trans hnic2
    exact beAbove_admit hadm hw
  | remove pod => exact hbe.elim

theorem Sound.beNonneg (hs : Sound bePool info nic0 masterNic s pods) (hok : ConfigOk bePool info)
    (hbe : nic0.be = beShare bePool info) {nic : NICInfo} (hnic : s.nic = some nic) :
    BeNonneg nic.toPools := by
  cases hnic.symm.trans hs.nic
  apply beNonneg_of_beShare hok
  simp [Pools.take, initDevice, hbe, beShare]

theorem step_above (hok : ConfigOk bePool info) (hbe : nic0.be = beShare bePool info)
    (h : step s e = some s') (hcyc : Cycle s e) (hs : Sound bePool info nic0 masterNic s pods)
    (habove : Above s) : Above s' := by
  cases e with
  | add pod request before after =>
    obtain ⟨nic, r, hnic, hr, hadm, -, hnic', -⟩ := step_add hs h hcyc
    intro nic2 hnic2
    cases hnic'.symm.trans hnic2
    by_cases hw : r.workloadType = .beIndex
    · exact beAbove_admit hadm hw
    · refine beAbove_take (hs.beNonneg hok hbe hnic) (habove nic hnic) ?_
      rw [demand_be_of_ne hw]
  | remove pod =>
    obtain ⟨nic, e, hnic, he, -, hnic', -⟩ := step_remove hs h hcyc
    intro nic2 hnic2
    cases hnic'.symm.trans hnic2
    refine beAbove_take (hs.beNonneg hok hbe hnic) (habove nic hnic) ?_
    simpa using podDemand_be_nonneg .networkIo masterNic e.request

/-- The start of serial scheduling on the master card. -/
structure Fits (bePool : Int) (info : Device) (masterNic : String) (l : PodList) : Prop where
  config : ConfigOk bePool info
  entries : ∀ uid e, l.podList.lookup uid = some e → WellFormed .networkIo e.request ∧
    ∀ r ∈ e.request, r.ioType = .networkIo → NonNeg (demand r)
  within : Within (100 - bePool) info (reserved .networkIo masterNic l.podList)

def NotOvercommitted (bePool : Int) (info : Device) (masterNic : String) (es : List Event)
    (s : State) : Prop :=
  ∃ pods nic, s.pods = some pods ∧ s.masterNic = masterNic ∧ s.nic = some nic ∧
    Within (100 - bePool) info (reserved .networkIo masterNic pods) ∧
    ((∃ e ∈ es, AdmitsBe masterNic e) → 0 < (reserved .networkIo masterNic pods).2.2 →
      nic.beMin.total < nic.be.total / (reserved .networkIo masterNic pods).2.2 ∧
      nic.beMin.inBps < nic.be.inBps / (reserved .networkIo masterNic pods).2.2 ∧
      nic.beMin.outBps < nic.be.outBps / (reserved .networkIo masterNic pods).2.2)

theorem run_notOvercommitted {rc : ResourceConfigSpec} {nodeName : String}
    {ctx : ResourceIOContext} {l : PodList} {ps : Resource} {es : List Event}
    (hlist : ctx.getReservedPods nodeName = .ok l)
    (hinfo : rc.devices.lookup masterNic = some info) (hfits : Fits rc.bePool info masterNic l)
    (hinit : initNodeStatus (addCacheNodeInfo nodeName rc masterNic) ctx rc = .done ps)
    (hcyc : Along step Cycle ⟨ps, ctx⟩ es) (hrun : run step ⟨ps, ctx⟩ es = some s') :
    NotOvercommitted rc.bePool info masterNic es s' := by
  let nic0 : NICInfo :=
    { ga := .zero, be := beShare rc.bePool info, defaultSpeed := info.defaultIn }
  have hstart : Sound rc.bePool info nic0 masterNic ⟨ps, ctx⟩ l.podList := by
    have hl := getReservedPods_ok.mp hlist
    have hname : (addCacheNodeInfo nodeName rc masterNic).nodeName = nodeName := rfl
    rw [initNodeStatus, hname, hlist, Outcome.done.injEq] at hinit
    subst hinit
    refine ⟨?_, rfl, ?_, hfits.entries, hfits.within⟩
    · simp [State.pods, Resource.setNics, addCacheNodeInfo, hl]
    rw [← computedTotal_eq_reserved fun uid e he => (hfits.entries uid e he).1,
      ← initDevice_eq_take]
    simp [State.nic, State.masterNic, Resource.setNics, addCacheNodeInfo, initNics,
      Dict.lookup_mapVals, hinfo, nic0]
  have hkeep : ∀ s e t, step s e = some t → Cycle s e →
      (∃ pods, Sound rc.bePool info nic0 masterNic s pods) →
      ∃ pods, Sound rc.bePool info nic0 masterNic t pods :=
    fun _ _ _ h hc ⟨_, hs⟩ => step_sound hfits.config h hc hs
  obtain ⟨pods, hs'⟩ := run_invariant hkeep ⟨_, hstart⟩ hcyc hrun
  refine ⟨pods, _, hs'.pods_eq, hs'.master, hs'.nic, hs'.within, ?_⟩
  intro hadmits
  have habove : Above s' :=
    run_established hkeep (fun _ _ _ h hc ⟨_, hs⟩ => step_above_of_admitsBe h hc hs)
      (fun _ _ _ h hc ⟨_, hs⟩ => step_above hfits.config rfl h hc hs) ⟨_, hstart⟩ hcyc hrun
      hadmits
  have hbe := habove _ hs'.nic
  simpa [BeAbove, Pools.take, initDevice] using hbe

end NetworkIo
/-! ## Both handlers -/

/-- Serial scheduling never over-commits a disk or the master network card of a node. -/
theorem no_overcommit [QuantityParser] :
    (∀ (rc : ResourceConfigSpec) (nodeName emptyDirDevice : String) (usage : Dict String Int)
      (size : String → Int) (env : BlockIo.Env) (l : PodList) (ps : BlockIo.Resource)
      (es : List BlockIo.Event) (s : BlockIo.State),
      env.ctx.getReservedPods nodeName = .ok l →
      BlockIo.Fits rc (BlockIo.addCacheNodeInfo nodeName rc usage size emptyDirDevice) l →
      BlockIo.initNodeStatus (BlockIo.addCacheNodeInfo nodeName rc usage size emptyDirDevice)
        env.ctx rc = .done ps →
      Along BlockIo.step BlockIo.Cycle ⟨ps, env, []⟩ es →
      run BlockIo.step ⟨ps, env, []⟩ es = some s → BlockIo.NotOvercommitted rc es s) ∧
    (∀ (rc : ResourceConfigSpec) (nodeName masterNic : String) (info : Device)
      (ctx : ResourceIOContext) (l : PodList) (ps : NetworkIo.Resource)
      (es : List NetworkIo.Event) (s : NetworkIo.State),
      ctx.getReservedPods nodeName = .ok l → rc.devices.lookup masterNic = some info →
      NetworkIo.Fits rc.bePool info masterNic l →
      NetworkIo.initNodeStatus (NetworkIo.addCacheNodeInfo nodeName rc masterNic) ctx rc =
        .done ps →
      Along NetworkIo.step NetworkIo.Cycle ⟨ps, ctx⟩ es →
      run NetworkIo.step ⟨ps, ctx⟩ es = some s →
      NetworkIo.NotOvercommitted rc.bePool info masterNic es s) :=
  ⟨fun _ _ _ _ _ _ _ _ _ _ hlist hfits hinit hcyc hrun =>
      BlockIo.run_notOvercommitted hlist hfits hinit hcyc hrun,
    fun _ _ _ _ _ _ _ _ _ hlist hinfo hfits hinit hcyc hrun =>
      NetworkIo.run_notOvercommitted hlist hinfo hfits hinit hcyc hrun⟩

namespace BlockIo

theorem sda_fits : Fits sdaConfig sdaNode ⟨0, ∅⟩ := by
  have hinfo : ∀ dev info, sdaConfig.devices.lookup dev = some info →
      ConfigOk sdaConfig.bePool info ∧ Within (100 - sdaConfig.bePool) info 0 := by
    intro dev info h
    obtain ⟨rfl, rfl⟩ := Dict.eq_of_lookup_singleton h
    refine ⟨⟨?_, ?_, ?_, ?_, ?_⟩, ?_, ?_, ?_⟩ <;> decide +kernel
  refine ⟨fun dev info h => (hinfo dev info h).1, ?_, fun dev info h => (hinfo dev info h).2⟩
  intro uid e he
  simp at he

end BlockIo
namespace NetworkIo

def ethDevice : Device :=
  { name := "eth0", type := .defaultDevice, defaultIn := 5, defaultOut := 5, readRatio := ∅,
    writeRatio := ∅, capacityIn := 100, capacityOut := 100, capacityTotal := 200, diskSize := "",
    mountPath := "" }

def ethConfig : ResourceConfigSpec :=
  { bePool := 20, devices := Finmap.singleton "eth0" ethDevice, classes := [] }

def ethRequest (w : WorkloadType) : RequestInfo :=
  AList.singleton "eth0" { ioType := .networkIo, workloadType := w, devRequest := some {
    devName := "eth0", request := some ⟨30, 20, 0, 0⟩, limit := none, rawRequest := none,
    rawLimit := none } }

def ethStart : State :=
  { ps := (addCacheNodeInfo "n" ethConfig "eth0").setNics
      (initNics ethConfig ∅ (addCacheNodeInfo "n" ethConfig "eth0").info.nicsStatus)
    ctx := BlockIo.sdaEnv.ctx }

def ethEvents : List Event :=
  [.add (BlockIo.sdaPod "a") (ethRequest .gaIndex) [] [],
   .add (BlockIo.sdaPod "b") (ethRequest .beIndex) [] [],
   .remove (BlockIo.sdaPod "a")]

theorem eth_fits : Fits ethConfig.bePool ethDevice "eth0" ⟨0, ∅⟩ := by
  refine ⟨⟨?_, ?_, ?_, ?_, ?_⟩, ?_, ?_, ?_, ?_⟩
  case refine_6 => intro uid e he; simp at he
  all_goals decide +kernel

end NetworkIo

attribute [local instance] sampleParser

theorem no_overcommit_concrete :
    (∃ s, run BlockIo.step BlockIo.sdaStart BlockIo.sdaEvents = some s ∧
      BlockIo.NotOvercommitted BlockIo.sdaConfig BlockIo.sdaEvents s) ∧
    ∃ s, run NetworkIo.step NetworkIo.ethStart NetworkIo.ethEvents = some s ∧
      NetworkIo.NotOvercommitted NetworkIo.ethConfig.bePool NetworkIo.ethDevice "eth0"
        NetworkIo.ethEvents s := by
  refine ⟨(Option.isSome_iff_exists.mp (by decide +kernel)).imp fun s hs => ⟨hs, ?_⟩,
    (Option.isSome_iff_exists.mp (by decide +kernel)).imp fun s hs => ⟨hs, ?_⟩⟩
  · exact no_overcommit.1 _ "n" _ _ _ _ ⟨0, ∅⟩ _ _ s rfl BlockIo.sda_fits rfl (by decide +kernel) hs
  · exact no_overcommit.2 _ "n" _ _ _ ⟨0, ∅⟩ _ _ s rfl rfl NetworkIo.eth_fits rfl
      (by decide +kernel) hs

end IOIsolation.Sched
