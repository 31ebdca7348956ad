import IOIsolation.Csi.NodeServer
import IOIsolation.Lib.Run

/-!
# Csi.Lifecycle

The order in which volumes are created, staged, published and deleted, as the driver enforces it when
it checks the lifecycle. The order holds in memory and in the state file, so a restart between two
calls does not break it, whichever writes of the file have failed.

* `ordered_put`, `ordered_remove` — changes of single volumes that keep the order.
* `inv_step`         — every call and every restart keeps it.
* `lifecycle_ordered` — it holds in every run, and no volume in use is deleted.
-/

namespace IOIsolation.Csi.Lifecycle

open Lib ControllerServer KeyedList

/-! ## Runs -/

inductive Event where
  | create (req : CreateVolumeRequest) (o : CreateOutcome)
  | delete (volumeId : String) (o : DeleteOutcome)
  | node (e : NodeServer.NodeEvent)

/-- The uuid that the call gets is not the id of a volume. -/
def Fresh (d : Driver) (o : CreateOutcome) : Prop :=
  ∀ id, o.uuid = .ok id → id ∉ d.volumes.map Volume.volID ∧ id ∉ d.file.map Volume.volID

instance (d : Driver) (o : CreateOutcome) : Decidable (Fresh d o) :=
  match h : o.uuid with
  | .ok id =>
    decidable_of_iff (id ∉ d.volumes.map Volume.volID ∧ id ∉ d.file.map Volume.volID)
      ⟨fun hid id' h' => by rw [h] at h'; exact Except.ok.inj h' ▸ hid, fun hf => hf id h⟩
  | .error e => isTrue fun id h' => by rw [h] at h'; cases h'

/-- There is no step for a uuid that was used before. -/
def step (cfg : Config) (d : Driver) : Event → Option Driver
  | .create req o =>
    if Fresh d o then some (ControllerServer.createVolume cfg o req d).2 else none
  | .delete volumeId o => some (ControllerServer.deleteVolume cfg o volumeId d).2
  | .node e => NodeServer.step cfg d e

def empty (cm : Option ConfigMap) : Driver := ⟨[], [], false, ∅, cm⟩

/-! ## The order -/

/-- The volume is staged at one path at most, and published only if it is staged. -/
def VolumeOrdered (v : Volume) : Prop :=
  v.staged.length ≤ 1 ∧ (v.published ≠ [] → v.staged ≠ [])

structure Ordered (volumes : List Volume) : Prop where
  nodup : (volumes.map Volume.volID).Nodup
  each : ∀ v ∈ volumes, VolumeOrdered v

def InUse (v : Volume) : Prop := v.staged ≠ [] ∨ v.published ≠ []

/-- The order holds in memory and in the file. -/
def Inv (d : Driver) : Prop := Ordered d.volumes ∧ Ordered d.file

theorem ordered_nil : Ordered [] := ⟨List.nodup_nil, fun v hv => by cases hv⟩

variable {v : Volume} {d : Driver} {cfg : Config} {volumes : List Volume} {d' : Driver}

theorem ordered_put (h : Ordered volumes) (hv : VolumeOrdered v) :
    Ordered (put Volume.volID v volumes) := by
  refine ⟨nodup_put h.nodup v, fun x hx => ?_⟩
  rcases mem_of_mem_put hx with rfl | hx
  · exact hv
  · exact h.each x hx

theorem ordered_remove (h : Ordered volumes) (id : String) :
    Ordered (remove Volume.volID id volumes) :=
  ⟨nodup_remove h.nodup id, fun x hx => h.each x (mem_of_mem_remove hx)⟩

/-- The file has the volumes or an older list, which is in order as well. -/
theorem inv_dump (h : Inv d) (written : WriteResult) : Inv (State.dump written d).2 := by
  rcases written with _ | ⟨e, _ | _ | _⟩
  · exact ⟨h.1, h.1⟩
  · exact h
  · exact h
  · exact ⟨h.1, h.1⟩

theorem inv_updateVolume (h : Inv d) (written : WriteResult) (hv : VolumeOrdered v) :
    Inv (State.updateVolume written v d).2 :=
  inv_dump (d := { d with volumes := _ }) ⟨ordered_put h.1 hv, h.2⟩ written

theorem ordered_of_find (h : Inv d) {id : String}
    (hv : find Volume.volID id d.volumes = some v) : VolumeOrdered v :=
  h.1.each v (mem_of_find hv)

/-! ## One step -/

theorem inv_stage (h : Inv d) (cfg : Config) (written : WriteResult) (req : NodeStageVolumeRequest) :
    Inv (NodeServer.nodeStageVolume cfg written req d).2 := by
  rcases NodeServer.stage_cases cfg written req d with hsame | ⟨vol, -, -, hput⟩
  · rw [hsame]
    exact h
  · rw [hput]
    exact inv_updateVolume h written ⟨le_of_eq rfl, fun _ => List.cons_ne_nil _ _⟩

theorem inv_publish (h : Inv d) (cfg : Config) (o : PublishOutcome) (req : NodePublishVolumeRequest) :
    Inv (NodeServer.nodePublishVolume cfg o req d).2 := by
  rcases NodeServer.publish_cases cfg o req d with
    ⟨e, hsame⟩ | ⟨hsame, -, -⟩ | ⟨cap, vol, mounts, -, hfind, hstaged, -, hput⟩
  · rw [hsame]
    exact h
  · rw [hsame]
    exact h
  rw [hput]
  refine inv_updateVolume (d := { d with mounts := mounts }) h o.written ?_
  exact ⟨(ordered_of_find h hfind).1, fun _ => hstaged⟩

theorem inv_unpublish (h : Inv d) (o : UnpublishOutcome) (req : NodeUnpublishVolumeRequest) :
    Inv (NodeServer.nodeUnpublishVolume o req d).2 := by
  rcases NodeServer.unpublish_cases o req d with
    ⟨e, hsame⟩ | ⟨vol, hfind, ⟨-, hsame⟩ | ⟨-, ⟨e, e', -, hmounts⟩ | ⟨-, hput⟩⟩⟩
  · rw [hsame]
    exact h
  · rw [hsame]
    exact h
  · rw [hmounts]
    exact h
  rw [hput]
  refine inv_updateVolume (d := { d with mounts := d.mounts.erase req.targetPath }) h o.written ?_
  have hvol := ordered_of_find h hfind
  refine ⟨hvol.1, fun hne => hvol.2 ?_⟩
  rintro hnil
  exact hne (by rw [hnil]; rfl)

theorem inv_unstage (h : Inv d) (written : WriteResult) (req : NodeUnstageVolumeRequest) :
    Inv (NodeServer.nodeUnstageVolume written req d).2 := by
  rcases NodeServer.unstage_cases written req d with hsame | ⟨vol, hfind, hpublished, hput⟩
  · rw [hsame]
    exact h
  rw [hput]
  refine inv_updateVolume h written ⟨?_, fun hne => absurd hpublished hne⟩
  exact le_trans (List.erase_sublist).length_le (ordered_of_find h hfind).1

theorem inv_nodeStep (h : Inv d) {e : NodeServer.NodeEvent}
    (hstep : NodeServer.step cfg d e = some d') : Inv d' := by
  cases e with
  | call c =>
    obtain rfl := Option.some.inj hstep
    cases c with
    | stage req written => exact inv_stage h cfg written req
    | publish req o => exact inv_publish h cfg o req
    | unpublish req o => exact inv_unpublish h o req
    | unstage req written => exact inv_unstage h written req
  | restart =>
    rw [State.restore_eq_some hstep]
    exact ⟨h.2, h.2⟩
  | reboot =>
    obtain ⟨d₁, hd₁, rfl⟩ := Option.map_eq_some_iff.mp hstep
    rw [State.restore_eq_some hd₁]
    exact ⟨h.2, h.2⟩

theorem ordered_newVolume (req : CreateVolumeRequest) (volAccessType : AccessType)
    (deviceId path volumeID : String) :
    VolumeOrdered (newVolume req volAccessType deviceId path volumeID) :=
  ⟨Nat.zero_le 1, fun h => absurd rfl h⟩

theorem inv_create (h : Inv d) (cfg : Config) (o : CreateOutcome) (req : CreateVolumeRequest) :
    Inv (createVolume cfg o req d).2 := by
  unfold Inv
  rw [createVolume_volumes, createVolume_file]
  cases hprepare : prepare cfg o req d with
  | error e => exact h
  | ok vol =>
    obtain ⟨cm, volAccessType, device, volumeID, -, -, -, -, -, rfl⟩ :=
      request_eq_ok.mp (prepare_eq_ok.mp hprepare).1
    have hput := ordered_put h.1 (ordered_newVolume req volAccessType device.1 device.2 volumeID)
    exact ⟨hput, (inv_dump (d := { d with volumes := _ }) ⟨hput, h.2⟩ o.written).2⟩

theorem inv_delete (h : Inv d) (cfg : Config) (o : DeleteOutcome) (volumeId : String) :
    Inv (deleteVolume cfg o volumeId d).2 := by
  unfold Inv
  rw [deleteVolume_volumes, deleteVolume_file]
  rcases prepareDelete cfg o volumeId d with e | _ | vol
  · exact h
  · exact h
  have hremove := ordered_remove h.1 volumeId
  exact ⟨hremove, (inv_dump (d := { d with volumes := _ }) ⟨hremove, h.2⟩ o.written).2⟩

theorem inv_step {e : Event} (hstep : step cfg d e = some d') (h : Inv d) : Inv d' := by
  cases e with
  | create req o =>
    simp only [step] at hstep
    split_ifs at hstep
    obtain rfl := Option.some.inj hstep
    exact inv_create h cfg o req
  | delete volumeId o =>
    obtain rfl := Option.some.inj hstep
    exact inv_delete h cfg o volumeId
  | node e => exact inv_nodeStep h hstep

theorem unused_of_check (hcheck : cfg.checkVolumeLifecycle = true) {vol : Volume}
    (h : checkUnused cfg vol = .ok ()) : ¬ InUse vol := by
  unfold checkUnused at h
  split_ifs at h with hused
  simp only [hcheck, Bool.and_true, Bool.or_eq_true, Bool.not_eq_true', Bool.not_eq_true,
    not_or] at hused
  rintro (hstaged | hpublished)
  · exact hstaged (by simpa using hused.2)
  · exact hpublished (by simpa using hused.1.2)

theorem mem_delete_of_inUse (hcheck : cfg.checkVolumeLifecycle = true) (h : Ordered d.volumes)
    (o : DeleteOutcome) (volumeId : String) (hv : v ∈ d.volumes) (huse : InUse v) :
    v ∈ (deleteVolume cfg o volumeId d).2.volumes := by
  rw [deleteVolume_volumes]
  rcases hprepare : prepareDelete cfg o volumeId d with e | _ | vol
  · exact hv
  · exact hv
  obtain ⟨hfind, hunused⟩ := prepareDelete_ok hprepare
  refine mem_remove_of_ne hv fun hid => ?_
  have hsame : find Volume.volID volumeId d.volumes = some v :=
    (find_eq_some_iff h.nodup).mpr ⟨hv, hid⟩
  obtain rfl := Option.some.inj (hfind.symm.trans hsame)
  exact unused_of_check hcheck hunused huse

/-! ## Whole runs -/

/-- In every run of a driver that checks the lifecycle, every volume is staged at one path at most
and published only if staged, no two volumes have the same id, and the next deletion keeps every
volume in use. -/
theorem lifecycle_ordered {cfg : Config} (hcheck : cfg.checkVolumeLifecycle = true)
    (cm : Option ConfigMap) {es : List Event} {d : Driver}
    (hrun : run (step cfg) (empty cm) es = some d) :
    Ordered d.volumes ∧
      ∀ o volumeId d', step cfg d (.delete volumeId o) = some d' →
        ∀ v ∈ d.volumes, InUse v → v ∈ d'.volumes := by
  have hinv : Inv d := run_invariant (C := fun _ _ => True) (I := Inv)
    (fun _ _ _ hstep _ h => inv_step hstep h) ⟨ordered_nil, ordered_nil⟩ (along_true _ _ _) hrun
  refine ⟨hinv.1, fun o volumeId d' hstep v hv huse => ?_⟩
  obtain rfl := Option.some.inj hstep
  exact mem_delete_of_inUse hcheck hinv.1 o volumeId hv huse

def publishing : List Event :=
  [.create sampleRequest (allOk "v"),
    .node (.call (.stage ⟨"v", "/stage", some ⟨false, true, false⟩⟩ none)),
    .node (.call (.publish ⟨"v", "/target", "/stage", some ⟨false, true, false⟩, some "/mnt/v"⟩
      ⟨.error "", .missing, none, .missing, none, none⟩))]

theorem lifecycle_ordered_published :
    ∃ d, run (step sampleConfig) (empty (some sampleMap)) publishing = some d ∧
      d.volumes.map Volume.published = [["/target"]] ∧ Ordered d.volumes ∧
      ∀ o volumeId d', step sampleConfig d (.delete volumeId o) = some d' →
        ∀ v ∈ d.volumes, InUse v → v ∈ d'.volumes := by
  exact exists_run (by decide +kernel) fun d hd _ => lifecycle_ordered rfl (some sampleMap) hd

end IOIsolation.Csi.Lifecycle
