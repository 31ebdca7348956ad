import IOIsolation.Sched.BlockIo
import IOIsolation.Lib.Run

/-!
# Sched.Accounting

Reserving and releasing pods on the disks of one node. A step is a successful `AddPod` followed
by the entry of the pod in the reserved-pod list, or a successful `RemovePod` followed by its
removal from the list. The incremental cache is compared with what `InitNodeStatus` computes from
scratch:

* `Accounted`                  — the disks are the ones computed from the current list.
* `step_add_accounted`, `step_remove_accounted` — the two steps keep it.
* `run_eq_initNodeStatus`      — so every run ends in the recomputed cache.
-/

namespace IOIsolation.Sched.BlockIo

open Lib Finmap Option ResourceIOContext

structure State where
  ps : Resource
  env : Env
  added : List String
  deriving DecidableEq

/-- The entry of a pod holds the requests of all handlers; `before` and `after` are those of the
others. -/
inductive Event where
  | add (pod : Pod) (request : RequestInfo) (before after : List IOResourceRequest)
      (a : MappingAnswers)
  | remove (pod : Pod) (client : Option RemoveAnswers)

def entryOf (request : RequestInfo) (before after : List IOResourceRequest) :
    List IOResourceRequest :=
  before ++ request.resourceRequest.entries.map (fun e => e.2.ioRequest) ++ after

def step (s : State) : Event → Option State
  | .add pod request before after a =>
    match addPod .ignored s.ps pod (some request) a s.env with
    | .done (ps, env, .added reqs) =>
      some {
        ps := ps
        env := { env with ctx := env.ctx.record (before ++ reqs ++ after) pod ps.nodeName }
        added := pod.uid :: s.added }
    | _ => none
  | .remove pod client =>
    match removePod .ignored s.ps pod client s.env with
    | .done (ps, env, .ok ()) =>
      some {
        ps := ps
        env := { env with ctx := (env.ctx.removePod pod ps.nodeName).1 }
        added := s.added }
    | _ => none

def State.pods (s : State) : Option (Dict String PodRequest) :=
  (s.env.ctx.reservedpod.lookup s.ps.nodeName).map (·.podList)

variable {a : MappingAnswers} {client : Option RemoveAnswers} {disks : Disks}

theorem step_add {s s' : State} {pod : Pod} {request : RequestInfo}
    {before after : List IOResourceRequest} {pods : Dict String PodRequest}
    (hpods : s.pods = some pods) (h : step s (.add pod request before after a) = some s') :
    (∀ e ∈ request.resourceRequest.entries, e.1 ∈ s.ps.info.disksStatus) ∧
      s'.ps = s.ps.setDisks
        (takeAll (entriesDemand request.resourceRequest.entries) s.ps.info.disksStatus) ∧
      s'.added = pod.uid :: s.added ∧
      s'.pods = some (enter pods (entryOf request before after) pod) := by
  unfold step at h
  cases hadd : addPod .ignored s.ps pod (some request) a s.env with
  | panic | deadlock => simp [hadd] at h
  | done x =>
    obtain ⟨ps, env, r⟩ := x
    cases r with
    | mismatch | failed => simp [hadd] at h
    | added reqs =>
      obtain ⟨hreqs, hmem, hps, hctx⟩ := addPod_added hadd
      simp only [hadd, some.injEq] at h
      subst h hps
      refine ⟨hmem, rfl, rfl, ?_⟩
      obtain ⟨l, hl, rfl⟩ := map_eq_some_iff.mp hpods
      have hl' : env.ctx.reservedpod.lookup s.ps.nodeName = some l := by
        rw [hctx.reservedpod]; exact hl
      obtain ⟨l', hrec, hlist⟩ := lookup_record
        (before ++ reqs ++ after) pod hl'
      rw [entryOf, ← hreqs]
      simp only [State.pods, Resource.setDisks_nodeName, hrec, map_some, hlist]

theorem step_remove {s s' : State} {pod : Pod} {pods : Dict String PodRequest}
    (hpods : s.pods = some pods) (hnode : pod.nodeName = s.ps.nodeName)
    (h : step s (.remove pod client) = some s') :
    ∃ e disks, pods.lookup pod.uid = some e ∧
      refundAll s.ps.nodeName e.request s.ps.info.disksStatus = .done (disks, .ok ()) ∧
      s'.ps = s.ps.setDisks disks ∧ s'.added = s.added ∧
      s'.pods = some (pods.erase pod.uid) := by
  unfold step at h
  cases hrem : removePod .ignored s.ps pod client s.env with
  | panic | deadlock => simp [hrem] at h
  | done x =>
    obtain ⟨ps, env, r⟩ := x
    cases r with
    | error err => simp [hrem] at h
    | ok u =>
      obtain ⟨l, e, disks, hl, he, hrefund, hps, hctx⟩ := removePod_ok hrem
      simp only [hrem, some.injEq] at h
      subst h hps
      have : pods = l.podList := by
        simpa [State.pods, hl, eq_comm] using hpods
      subst this
      refine ⟨e, disks, he, hrefund, rfl, rfl, ?_⟩
      have hl' : env.ctx.reservedpod.lookup s.ps.nodeName = some l := by
        rw [hctx.reservedpod]; exact hl
      simp only [State.pods, Resource.setDisks_nodeName]
      rw [removePod_of_lookup hnode hl']
      simp

/-! ## The recomputed disks -/

/-- Every registered disk is a configured one. -/
def Configured (rc : ResourceConfigSpec) (disks : Disks) : Prop := ∀ dev ∈ disks, dev ∈ rc.devices

theorem addCacheNodeInfo_configured [QuantityParser] (nodeName : String) (rc : ResourceConfigSpec)
    (usage : Dict String Int) (size : String → Int) (emptyDirDevice : String) :
    Configured rc
      (addCacheNodeInfo nodeName rc usage size emptyDirDevice).info.disksStatus := by
  intro dev hdev
  rw [← lookup_isSome] at hdev ⊢
  simpa [addCacheNodeInfo, Dict.lookup_mapVals] using hdev

theorem initDisks_eq_takeAll {rc : ResourceConfigSpec} (h : Configured rc disks)
    (pods : Dict String PodRequest) : initDisks rc pods disks =
      takeAll (fun dev => computedTotal .diskIo dev pods) (initDisks rc ∅ disks) := by
  apply ext_lookup
  intro dev
  rw [lookup_takeAll, initDisks, initDisks, Dict.lookup_mapVals, Dict.lookup_mapVals]
  cases hl : disks.lookup dev with
  | none => rfl
  | some disk =>
    have hmem : dev ∈ disks := mem_of_lookup_eq_some hl
    obtain ⟨info, hinfo⟩ := mem_iff.mp (h dev hmem)
    simp only [map_some, hinfo]
    rw [initDevice_eq_take]
    rfl

variable {dev : String}

theorem mem_initDisks {rc : ResourceConfigSpec} {pods : Dict String PodRequest} :
    dev ∈ initDisks rc pods disks ↔ dev ∈ disks := by
  rw [← lookup_isSome, ← lookup_isSome, initDisks, Dict.lookup_mapVals, isSome_map]

theorem lookup_initDisks {rc : ResourceConfigSpec} {pods : Dict String PodRequest}
    (h : Configured rc disks) {disk : DiskInfo}
    (hl : (initDisks rc pods disks).lookup dev = some disk) :
    ∃ disk0 info, disks.lookup dev = some disk0 ∧ rc.devices.lookup dev = some info ∧
      disk = disk0.setPools
        ((initDevice .diskIo rc.bePool dev info ∅ disk0.toPools).take
          (computedTotal .diskIo dev pods)) := by
  rw [initDisks, Dict.lookup_mapVals] at hl
  obtain ⟨disk0, hl0, hdisk⟩ := map_eq_some_iff.mp hl
  obtain ⟨info, hinfo⟩ := mem_iff.mp (h dev (mem_of_lookup_eq_some hl0))
  refine ⟨disk0, info, hl0, hinfo, ?_⟩
  rw [← initDevice_eq_take, ← hdisk, hinfo]

/-! ## One step -/

/-- The cache entry is the one computed from scratch from the list `pods`. -/
def Accounted (rc : ResourceConfigSpec) (ps0 : Resource) (s : State)
    (pods : Dict String PodRequest) : Prop :=
  s.pods = some pods ∧ s.ps = ps0.setDisks (initDisks rc pods ps0.info.disksStatus)

/-- What may be added: a well-formed request of a new pod, next to requests of other types. -/
structure Addable (pods : Dict String PodRequest) (pod : Pod) (request : RequestInfo)
    (before after : List IOResourceRequest) : Prop where
  wellFormed : request.WellFormed
  before_other : ∀ r ∈ before, r.ioType ≠ .diskIo
  after_other : ∀ r ∈ after, r.ioType ≠ .diskIo
  new : pod.uid ∉ pods

instance (pods : Dict String PodRequest) (pod : Pod) (request : RequestInfo)
    (before after : List IOResourceRequest) : Decidable (Addable pods pod request before after) :=
  decidable_of_iff (request.WellFormed ∧ (∀ r ∈ before, r.ioType ≠ .diskIo) ∧
      (∀ r ∈ after, r.ioType ≠ .diskIo) ∧ pod.uid ∉ pods)
    ⟨fun ⟨h1, h2, h3, h4⟩ => ⟨h1, h2, h3, h4⟩, fun ⟨h1, h2, h3, h4⟩ => ⟨h1, h2, h3, h4⟩⟩

variable {rc : ResourceConfigSpec} {ps0 : Resource} {s s' : State} {pods : Dict String PodRequest}
  {pod : Pod} {request : RequestInfo} {before after : List IOResourceRequest}

section

variable (h : Addable pods pod request before after)
include h

theorem Addable.wellFormed_entry : WellFormed .diskIo (entryOf request before after) :=
  wellFormed_others h.before_other h.after_other h.wellFormed.requests

theorem Addable.podDemand_entry (dev : String) :
    podDemand .diskIo dev (entryOf request before after) =
      entriesDemand request.resourceRequest.entries dev := by
  rw [entryOf, podDemand_others h.before_other h.after_other, h.wellFormed.entriesDemand_eq]

theorem Addable.mem_entry {r : IOResourceRequest} (hr : r ∈ entryOf request before after)
    (ht : r.ioType = .diskIo) :
    ∃ e ∈ request.resourceRequest.entries, r = e.2.ioRequest ∧ devName r = some e.1 := by
  simp only [entryOf, List.mem_append, List.mem_map] at hr
  rcases hr with (hr | ⟨e, he, rfl⟩) | hr
  · exact absurd ht (h.before_other r hr)
  · exact ⟨e, he, rfl, (h.wellFormed e he).2.1⟩
  · exact absurd ht (h.after_other r hr)

end

theorem step_add_accounted (hconf : Configured rc ps0.info.disksStatus)
    (hacc : Accounted rc ps0 s pods) (hadd : Addable pods pod request before after)
    (h : step s (.add pod request before after a) = some s') :
    Accounted rc ps0 s' (enter pods (entryOf request before after) pod) := by
  obtain ⟨hpods, hps⟩ := hacc
  obtain ⟨-, hps', -, hpods'⟩ := step_add hpods h
  refine ⟨hpods', ?_⟩
  rw [hps', hps, Resource.setDisks_setDisks, Resource.setDisks_disksStatus]
  congr 1
  rw [initDisks_eq_takeAll hconf pods,
    initDisks_eq_takeAll hconf (enter pods (entryOf request before after) pod), takeAll_takeAll]
  congr 1
  funext dev
  rw [← hadd.podDemand_entry, enter]
  split
  · rename_i hnil; simp [hnil]
  · rw [computedTotal_insert hadd.new, computed_eq_podDemand hadd.wellFormed_entry, add_comm]

/-- The entry is well formed and names registered disks only. -/
def Refundable (ps0 : Resource) (e : PodRequest) : Prop :=
  WellFormed .diskIo e.request ∧ ∀ r ∈ e.request, r.ioType = .diskIo →
    ∀ dev, devName r = some dev → dev ∈ ps0.info.disksStatus

theorem step_add_refundable (hacc : Accounted rc ps0 s pods)
    (hadd : Addable pods pod request before after)
    (h : step s (.add pod request before after a) = some s') {e : PodRequest}
    (he : e.request = entryOf request before after) : Refundable ps0 e := by
  obtain ⟨hmem, -, -, -⟩ := step_add hacc.1 h
  rw [Refundable, he]
  refine ⟨hadd.wellFormed_entry, ?_⟩
  intro r hr ht dev hdev
  obtain ⟨x, hx, -, hname⟩ := hadd.mem_entry hr ht
  rw [hdev, some.injEq] at hname
  have hx' := hmem x hx
  rw [hacc.2, Resource.setDisks_disksStatus, mem_initDisks] at hx'
  exact hname ▸ hx'

section

variable (hconf : Configured rc ps0.info.disksStatus) (hacc : Accounted rc ps0 s pods)
  (hnode : pod.nodeName = s.ps.nodeName)
  (hentry : ∀ e, pods.lookup pod.uid = some e → Refundable ps0 e)
  (h : step s (.remove pod client) = some s')
include hconf hacc hnode hentry h

theorem step_remove_disks :
    ∃ e, pods.lookup pod.uid = some e ∧
      s'.ps = s.ps.setDisks
        (takeAll (fun dev => -podDemand .diskIo dev e.request) s.ps.info.disksStatus) ∧
      s'.pods = some (pods.erase pod.uid) := by
  obtain ⟨e, disks, he, hrefund, hps', -, hpods'⟩ := step_remove hacc.1 hnode h
  obtain ⟨hwf, hreg⟩ := hentry e he
  refine ⟨e, he, ?_, hpods'⟩
  rw [refundAll_of_wellFormed _ hwf] at hrefund
  · cases hrefund; exact hps'
  · intro r hr ht dev hdev
    rw [hacc.2, Resource.setDisks_disksStatus, mem_initDisks]
    exact hreg r hr ht dev hdev
  intro dev disk hl
  rw [hacc.2, Resource.setDisks_disksStatus] at hl
  obtain ⟨disk0, info, -, -, rfl⟩ := lookup_initDisks hconf hl
  rw [← computed_eq_podDemand hwf]
  simpa [Pools.take, initDevice] using computed_be_le_total he

theorem step_remove_accounted : Accounted rc ps0 s' (pods.erase pod.uid) := by
  obtain ⟨e, he, hps', hpods'⟩ := step_remove_disks hconf hacc hnode hentry h
  refine ⟨hpods', ?_⟩
  rw [hps', hacc.2, Resource.setDisks_setDisks, Resource.setDisks_disksStatus]
  congr 1
  rw [initDisks_eq_takeAll hconf pods, initDisks_eq_takeAll hconf (pods.erase pod.uid),
    takeAll_takeAll]
  congr 1
  funext dev
  rw [computedTotal_erase he, computed_eq_podDemand (hentry e he).1, sub_eq_add_neg]

end

/-! ## Every run -/

/-- A run adds new pods and removes pods it has added. -/
def Allowed (s : State) : Event → Prop
  | .add pod request before after _ =>
    match s.pods with
    | some pods => Addable pods pod request before after
    | none => False
  | .remove pod _ => pod.uid ∈ s.added ∧ pod.nodeName = s.ps.nodeName

instance (s : State) : ∀ e, Decidable (Allowed s e)
  | .add pod request before after _ =>
    match h : s.pods with
    | some pods => decidable_of_iff (Addable pods pod request before after) (by simp [Allowed, h])
    | none => isFalse (by simp [Allowed, h])
  | .remove pod _ => inferInstanceAs (Decidable (pod.uid ∈ s.added ∧ pod.nodeName = s.ps.nodeName))

/-- The cache is the recomputed one, and the entries of the added pods are well formed. The
entries the run started with are arbitrary: no step touches them. -/
def Consistent (rc : ResourceConfigSpec) (ps0 : Resource) (s : State) : Prop :=
  ∃ pods, Accounted rc ps0 s pods ∧
    ∀ uid ∈ s.added, ∀ e, pods.lookup uid = some e → Refundable ps0 e

theorem step_consistent (hconf : Configured rc ps0.info.disksStatus) {e : Event}
    (h : step s e = some s') (hall : Allowed s e) (hs : Consistent rc ps0 s) :
    Consistent rc ps0 s' := by
  obtain ⟨pods, hacc, hentries⟩ := hs
  cases e with
  | add pod request before after a =>
    simp only [Allowed, hacc.1] at hall
    obtain ⟨-, -, hadded, -⟩ := step_add hacc.1 h
    refine ⟨_, step_add_accounted hconf hacc hall h, ?_⟩
    intro uid huid e he
    rcases lookup_enter he with hold | ⟨-, hnew⟩
    · rw [hadded, List.mem_cons] at huid
      rcases huid with rfl | huid
      · -- the uid was not in the list before
        exact absurd (mem_of_lookup_eq_some hold) hall.new
      · exact hentries uid huid e hold
    · exact step_add_refundable hacc hall h hnew
  | remove pod client =>
    obtain ⟨hin, hnode⟩ := hall
    obtain ⟨_, _, -, -, -, hadded, -⟩ := step_remove hacc.1 hnode h
    refine ⟨_, step_remove_accounted hconf hacc hnode (hentries pod.uid hin) h, ?_⟩
    intro uid huid e he
    rw [hadded] at huid
    rw [Dict.lookup_erase_ite] at he
    split at he
    · cases he
    · exact hentries uid huid e he

/-- From any cache built by `InitNodeStatus`, every run of additions and removals ends in the
cache that `InitNodeStatus` computes from scratch from the list the run ends with. -/
theorem run_eq_initNodeStatus {env : Env} {l : PodList} {ps : Resource} {es : List Event}
    (hconf : Configured rc ps0.info.disksStatus)
    (hlist : env.ctx.getReservedPods ps0.nodeName = .ok l)
    (hinit : initNodeStatus ps0 env.ctx rc = .done ps)
    (hall : Along step Allowed ⟨ps, env, []⟩ es)
    (hrun : run step ⟨ps, env, []⟩ es = some s') :
    initNodeStatus ps0 s'.env.ctx rc = .done s'.ps := by
  have hps : ps = ps0.setDisks (initDisks rc l.podList ps0.info.disksStatus) := by
    simpa [initNodeStatus, hlist, eq_comm] using hinit
  subst hps
  have hstart : Consistent rc ps0
      ⟨ps0.setDisks (initDisks rc l.podList ps0.info.disksStatus), env, []⟩ := by
    refine ⟨l.podList, ⟨?_, rfl⟩, by simp⟩
    simp [State.pods, getReservedPods_ok.mp hlist]
  obtain ⟨pods, ⟨hpods, hps'⟩, -⟩ :=
    run_invariant (fun _ _ _ => step_consistent hconf) hstart hall hrun
  obtain ⟨l', hl', rfl⟩ := map_eq_some_iff.mp hpods
  rw [hps', Resource.setDisks_nodeName] at hl'
  rw [initNodeStatus, getReservedPods_ok.mpr hl']
  simp only [← hps']

/-! A run with a guaranteed and a best-effort pod on one disk. -/

def sdaConfig : ResourceConfigSpec :=
  { bePool := 20
    devices := Finmap.singleton "sda" {
      name := "sda", type := .defaultDevice, defaultIn := 5, defaultOut := 5, readRatio := ∅,
      writeRatio := ∅, capacityIn := 100, capacityOut := 100, capacityTotal := 150,
      diskSize := "1Gi", mountPath := "/mnt" }
    classes := [] }

attribute [local instance] sampleParser

def sdaNode : Resource := addCacheNodeInfo "n" sdaConfig ∅ (fun _ => 1000) "sda"

def sdaEnv : Env :=
  { ctx := { reservedpod := Finmap.singleton "n" ⟨0, ∅⟩, nsWhiteList := [], claimDevMap := ∅,
             queue := .empty, lastUpdatedGen := ∅ }
    cms := ∅
    held := false }

def sdaPod (uid : String) : Pod :=
  { uid := uid, name := uid, ns := "default", nodeName := "n", annotations := ∅, volumes := [] }

def sdaRequest (w : WorkloadType) : RequestInfo :=
  { resourceRequest := AList.singleton "sda" {
      ioRequest := { ioType := .diskIo, workloadType := w, devRequest := some {
        devName := "sda", request := some ⟨30, 20, 0, 0⟩, limit := none, rawRequest := none,
        rawLimit := none } }
      storageRequest := 0 }
    pvcToDevice := ∅ }

def noAnswers : MappingAnswers :=
  { provisioner := fun _ => ⟨.error "", .error ""⟩, getFail := none, writeFail := none }

def sdaEvents : List Event :=
  [.add (sdaPod "a") (sdaRequest .gaIndex) [] [] noAnswers,
   .add (sdaPod "b") (sdaRequest .beIndex) [] [] noAnswers,
   .remove (sdaPod "a") none]

def sdaStart : State := ⟨sdaNode.setDisks (initDisks sdaConfig ∅ sdaNode.info.disksStatus), sdaEnv, []⟩

theorem run_eq_initNodeStatus_sda :
    ∃ s', run step sdaStart sdaEvents = some s' ∧
      initNodeStatus sdaNode s'.env.ctx sdaConfig = .done s'.ps := by
  have hsome : (run step sdaStart sdaEvents).isSome = true := by decide +kernel
  obtain ⟨s', hs'⟩ := isSome_iff_exists.mp hsome
  exact ⟨s', hs', run_eq_initNodeStatus (l := ⟨0, ∅⟩)
    (addCacheNodeInfo_configured _ _ _ _ _) rfl rfl (by decide +kernel) hs'⟩

end IOIsolation.Sched.BlockIo
