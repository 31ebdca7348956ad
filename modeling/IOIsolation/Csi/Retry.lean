import IOIsolation.Csi.ControllerServer
import Mathlib.Data.Fintype.EquivFin

/-!
# Csi.Retry

Repeating a call that failed, or whose answer was lost. A call that fails before it touches the
volumes can be repeated. After the volumes have been changed in memory a failed write of the state
file leaves memory and file apart, and a volume that is there already is refused by its name, also
when it is the one that the same request has made.

* `prepare_isOk_iff`      — when a request gets as far as the volumes.
* `create_retriable_iff`, `delete_retriable_iff` — when the calls can be repeated.
* `retriable_iff`         — both calls.
-/

namespace IOIsolation.Csi.Retry

open Lib ControllerServer KeyedList

/-! ## Requests that get through -/

def StorageOk (o : CreateOutcome) : AccessType → Prop
  | .mountAccess => o.mkdirAll = none
  | .blockAccess => (o.stat = .found ∨ (o.stat = .missing ∧ o.fallocate = none)) ∧
      o.attachFileDevice = none

/-- Nothing fails up to the change of the volumes. -/
structure Undisturbed (o : CreateOutcome) (volAccessType : AccessType) : Prop where
  read : o.configMapRead = none
  uuid : ∃ id, o.uuid = .ok id
  storage : StorageOk o volAccessType

structure NothingFails (o : CreateOutcome) : Prop where
  undisturbed : ∀ volAccessType, Undisturbed o volAccessType
  written : o.written = none
  deviceInUse : o.deviceInUse = ⟨none, none⟩

/-- The request is complete, not too large, and new by its name. -/
structure Fulfillable (cfg : Config) (req : CreateVolumeRequest) (d : Driver)
    (volAccessType : AccessType) : Prop where
  complete : ∃ cm device, d.configMap = some cm ∧ Complete cfg req cm volAccessType device
  size : req.requiredBytes ≤ cfg.maxVolumeSize
  newName : ∀ v ∈ d.volumes, v.volName ≠ req.name

variable {cfg : Config} {o : CreateOutcome} {req : CreateVolumeRequest} {d : Driver} {path : String}
  {volAccessType : AccessType}

theorem makeStorage_eq_ok :
    HostPath.makeStorage o volAccessType path = .ok () ↔ StorageOk o volAccessType := by
  cases volAccessType with
  | mountAccess => cases h : o.mkdirAll <;> simp [HostPath.makeStorage, StorageOk, h]
  | blockAccess =>
    cases hstat : o.stat <;> cases hfile : o.fallocate <;> cases hattach : o.attachFileDevice <;>
      simp [HostPath.makeStorage, StorageOk, hstat, hfile, hattach]

theorem allocate_eq_ok {cap : Int} :
    HostPath.allocate cfg o volAccessType path cap = .ok () ↔
      cap ≤ cfg.maxVolumeSize ∧ StorageOk o volAccessType := by
  unfold HostPath.allocate
  split_ifs with hsize
  · simp [not_le.mpr hsize]
  · rw [makeStorage_eq_ok]
    simp [not_lt.mp hsize]

theorem prepare_isOk_iff :
    (∃ vol, prepare cfg o req d = .ok vol) ↔
      ∃ volAccessType, Fulfillable cfg req d volAccessType ∧ Undisturbed o volAccessType := by
  constructor
  · rintro ⟨vol, h⟩
    obtain ⟨hrequest, halloc⟩ := prepare_eq_ok.mp h
    obtain ⟨cm, volAccessType, device, id, hcm, hread, hc, hname, huuid, rfl⟩ :=
      request_eq_ok.mp hrequest
    obtain ⟨hsize, hstorage⟩ := allocate_eq_ok.mp halloc
    exact ⟨volAccessType, ⟨⟨cm, device, hcm, hc⟩, hsize, find_eq_none_iff.mp hname⟩,
      ⟨hread, ⟨id, huuid⟩, hstorage⟩⟩
  · rintro ⟨volAccessType, hf, hu⟩
    obtain ⟨cm, device, hcm, hc⟩ := hf.complete
    obtain ⟨id, huuid⟩ := hu.uuid
    refine ⟨newVolume req volAccessType device.1 device.2 id, prepare_eq_ok.mpr ⟨?_, ?_⟩⟩
    · exact request_eq_ok.mpr ⟨cm, volAccessType, device, id, hcm, hu.read, hc,
        find_eq_none_iff.mpr hf.newName, huuid, rfl⟩
    · exact allocate_eq_ok.mpr ⟨hf.size, hu.storage⟩

variable {vol : Volume} {e : Status} {volumeId : String}

theorem volName_of_prepare (h : prepare cfg o req d = .ok vol) : vol.volName = req.name := by
  obtain ⟨cm, volAccessType, device, id, -, -, -, -, -, rfl⟩ :=
    request_eq_ok.mp (prepare_eq_ok.mp h).1
  rfl

/-! ## Creating -/

theorem createVolume_of_error (h : prepare cfg o req d = .error e) :
    createVolume cfg o req d = (.error e, d) := by
  rw [createVolume_eq, h]

/-- A call succeeds if it gets as far as the volumes and the file is written. -/
theorem createVolume_isOk_iff :
    (∃ resp, (createVolume cfg o req d).1 = .ok resp) ↔
      (∃ vol, prepare cfg o req d = .ok vol) ∧ o.written = none := by
  rw [createVolume_eq]
  cases prepare cfg o req d with
  | error e => simp
  | ok vol => cases o.written <;> simp [State.updateVolume, State.dump]

theorem mem_createVolume (h : prepare cfg o req d = .ok vol) :
    vol ∈ (createVolume cfg o req d).2.volumes := by
  rw [createVolume_volumes, h]
  exact mem_put_self vol d.volumes

/-- The file can be read and has the volumes of the memory. -/
def Mirrored (d : Driver) : Prop := d.fileCut = false ∧ d.volumes = d.file

/-- The uuid is not the id of a volume in memory. -/
def NewId (d : Driver) (o : CreateOutcome) : Prop :=
  ∀ id, o.uuid = .ok id → id ∉ d.volumes.map Volume.volID

def named (name : String) (volumes : List Volume) : List Volume :=
  volumes.filter fun v => v.volName = name

/-- Whatever happens in a call, an error leaves the volumes as the file has them and without a new
volume, and the same request succeeds as soon as nothing fails, with one volume of its name. -/
def CreateRetriable (cfg : Config) (d : Driver) (req : CreateVolumeRequest)
    (o : CreateOutcome) : Prop :=
  ((∃ e, (createVolume cfg o req d).1 = .error e) →
    Mirrored (createVolume cfg o req d).2 ∧
      ∀ v ∈ (createVolume cfg o req d).2.volumes, v ∈ d.volumes) ∧
  ∀ o', NothingFails o' → NewId (createVolume cfg o req d).2 o' →
    (∃ resp, (createVolume cfg o' req (createVolume cfg o req d).2).1 = .ok resp) ∧
      (named req.name (createVolume cfg o' req (createVolume cfg o req d).2).2.volumes).length = 1

theorem exists_nothingFails (d : Driver) : ∃ o, NothingFails o ∧ NewId d o := by
  obtain ⟨id, hid⟩ := Infinite.exists_notMem_finset (d.volumes.map Volume.volID).toFinset
  refine ⟨allOk id, ⟨fun volAccessType => ⟨rfl, ⟨id, rfl⟩, ?_⟩, rfl, rfl⟩, fun id' h => ?_⟩
  · cases volAccessType with
    | mountAccess => rfl
    | blockAccess => exact ⟨.inr ⟨rfl, rfl⟩, rfl⟩
  · obtain rfl := Except.ok.inj h
    simpa using hid

theorem createVolume_isOk_of_nothingFails (h : NothingFails o) :
    (∃ resp, (createVolume cfg o req d).1 = .ok resp) ↔
      ∃ volAccessType, Fulfillable cfg req d volAccessType := by
  rw [createVolume_isOk_iff, prepare_isOk_iff]
  simp only [h.written, and_true]
  exact exists_congr fun volAccessType => and_iff_left (h.undisturbed volAccessType)

theorem named_put {volumes : List Volume} (hid : vol.volID ∉ volumes.map Volume.volID)
    (hname : ∀ v ∈ volumes, v.volName ≠ vol.volName) :
    (named vol.volName (put Volume.volID vol volumes)).length = 1 := by
  induction volumes with
  | nil => simp [named, put]
  | cons v volumes ih =>
    simp only [List.map_cons, List.mem_cons, not_or] at hid
    have hne : v.volID ≠ vol.volID := fun h => hid.1 h.symm
    rw [put, if_neg hne, named, List.filter_cons_of_neg (by
      simpa using hname v List.mem_cons_self)]
    exact ih hid.2 fun w hw => hname w (List.mem_cons_of_mem v hw)

theorem named_createVolume (hnew : NewId d o) (h : NothingFails o)
    (hf : ∃ volAccessType, Fulfillable cfg req d volAccessType) :
    (named req.name (createVolume cfg o req d).2.volumes).length = 1 := by
  obtain ⟨volAccessType, hf⟩ := hf
  obtain ⟨vol, hprepare⟩ := prepare_isOk_iff.mpr ⟨volAccessType, hf, h.undisturbed volAccessType⟩
  have hname := volName_of_prepare hprepare
  have hid : vol.volID ∉ d.volumes.map Volume.volID := by
    obtain ⟨cm, t, device, id, -, -, -, -, huuid, rfl⟩ :=
      request_eq_ok.mp (prepare_eq_ok.mp hprepare).1
    exact hnew id huuid
  rw [createVolume_volumes, hprepare, ← hname]
  exact named_put hid fun v hv => hname.symm ▸ hf.newName v hv

/-- The condition: the request can be fulfilled, memory and file are the same, and something fails
before the volumes are touched. -/
def CreateRecoverable (cfg : Config) (d : Driver) (req : CreateVolumeRequest)
    (o : CreateOutcome) : Prop :=
  Mirrored d ∧
    ∃ volAccessType, Fulfillable cfg req d volAccessType ∧ ¬ Undisturbed o volAccessType

theorem Fulfillable.type_eq {t t' : AccessType} (h : Fulfillable cfg req d t)
    (h' : Fulfillable cfg req d t') : t = t' := by
  obtain ⟨cm, device, -, hc⟩ := h.complete
  obtain ⟨cm', device', -, hc'⟩ := h'.complete
  exact Except.ok.inj (hc.check.symm.trans hc'.check)

theorem create_retriable_iff : CreateRetriable cfg d req o ↔ CreateRecoverable cfg d req o := by
  constructor
  · rintro ⟨herror, hretry⟩
    obtain ⟨o', hnothing, hnew⟩ := exists_nothingFails (createVolume cfg o req d).2
    obtain ⟨hok, -⟩ := hretry o' hnothing hnew
    obtain ⟨t, hf⟩ := (createVolume_isOk_of_nothingFails hnothing).mp hok
    cases hprepare : prepare cfg o req d with
    | ok vol =>
      -- The volume is in memory, and its name is taken when the request comes again.
      exact absurd (volName_of_prepare hprepare) (hf.newName vol (mem_createVolume hprepare))
    | error e =>
      rw [createVolume_of_error hprepare] at hf herror
      refine ⟨(herror ⟨e, rfl⟩).1, t, hf, fun hu => ?_⟩
      obtain ⟨vol, hvol⟩ := prepare_isOk_iff.mpr ⟨t, hf, hu⟩
      rw [hprepare] at hvol
      cases hvol
  · rintro ⟨hsync, t, hf, hdisturbed⟩
    obtain ⟨e, hprepare⟩ : ∃ e, prepare cfg o req d = .error e := by
      cases hprepare : prepare cfg o req d with
      | error e => exact ⟨e, rfl⟩
      | ok vol =>
        obtain ⟨t', hf', hu⟩ := prepare_isOk_iff.mp ⟨vol, hprepare⟩
        exact absurd (hf.type_eq hf' ▸ hu) hdisturbed
    unfold CreateRetriable
    rw [createVolume_of_error hprepare]
    refine ⟨fun _ => ⟨hsync, fun v hv => hv⟩, fun o' hnothing hnew => ⟨?_, ?_⟩⟩
    · exact (createVolume_isOk_of_nothingFails hnothing).mpr ⟨t, hf⟩
    · exact named_createVolume hnew hnothing ⟨t, hf⟩

/-! ## Deleting -/

/-- An error leaves the volumes as the file has them. -/
def DeleteRetriable (cfg : Config) (d : Driver) (volumeId : String) (o : DeleteOutcome) : Prop :=
  (∃ e, (deleteVolume cfg o volumeId d).1 = .error e) →
    Mirrored (deleteVolume cfg o volumeId d).2

/-- The volume is not in use, and its storage can be taken away. -/
def Removable (cfg : Config) (o : DeleteOutcome) (vol : Volume) : Prop :=
  checkUnused cfg vol = .ok () ∧ HostPath.removeStorage o vol = .ok ()

/-- The file is written, if not without an error, or it is kept and is without the volume already. -/
def FileFollows (d : Driver) (volumeId : String) : WriteResult → Prop
  | none => True
  | some ⟨_, .whole⟩ => True
  | some ⟨_, .kept⟩ => d.fileCut = false ∧ remove Volume.volID volumeId d.volumes = d.file
  | some ⟨_, .cut⟩ => False

/-- The condition: memory and file are the same, or nothing is to be done; and if the volume can go,
the file follows. -/
def DeleteRecoverable (cfg : Config) (d : Driver) (volumeId : String) (o : DeleteOutcome) : Prop :=
  if volumeId = "" ∨ cfg.ephemeral = true then Mirrored d
  else ∀ vol, find Volume.volID volumeId d.volumes = some vol →
    (Removable cfg o vol → FileFollows d volumeId o.written) ∧ (¬ Removable cfg o vol → Mirrored d)

theorem deleteVolume_of_error {o : DeleteOutcome} (h : prepareDelete cfg o volumeId d = .error e) :
    deleteVolume cfg o volumeId d = (.error e, d) := by
  rw [deleteVolume_eq, h]

theorem retriable_of_error {o : DeleteOutcome} (h : prepareDelete cfg o volumeId d = .error e) :
    DeleteRetriable cfg d volumeId o ↔ Mirrored d := by
  unfold DeleteRetriable
  rw [deleteVolume_of_error h]
  exact ⟨fun hr => hr ⟨e, rfl⟩, fun hs _ => hs⟩

theorem retriable_of_some {o : DeleteOutcome} (h : prepareDelete cfg o volumeId d = .ok (some vol)) :
    DeleteRetriable cfg d volumeId o ↔ FileFollows d volumeId o.written := by
  unfold DeleteRetriable
  rw [deleteVolume_eq, h]
  rcases o.written with _ | ⟨e, _ | _ | _⟩ <;> simp [State.dump, Mirrored, FileFollows]

theorem delete_retriable_iff {o : DeleteOutcome} :
    DeleteRetriable cfg d volumeId o ↔ DeleteRecoverable cfg d volumeId o := by
  unfold DeleteRecoverable
  by_cases hid : volumeId = ""
  · rw [if_pos (.inl hid)]
    exact retriable_of_error (by rw [prepareDelete, if_pos hid])
  by_cases heph : cfg.ephemeral = true
  · rw [if_pos (.inr heph)]
    have hinvalid : validateControllerServiceRequest cfg =
        .error ⟨.invalidArgument, "unsupported capability CREATE_DELETE_VOLUME"⟩ := by
      rw [validateControllerServiceRequest, if_pos heph]
    exact retriable_of_error (by rw [prepareDelete, if_neg hid, hinvalid])
  rw [if_neg (by simp [hid, heph])]
  have hvalid : validateControllerServiceRequest cfg = .ok () := by
    rw [validateControllerServiceRequest, if_neg heph]
  cases hfind : find Volume.volID volumeId d.volumes with
  | none =>
    have hnone : prepareDelete cfg o volumeId d = .ok none := by
      simp only [prepareDelete, hid, hvalid, hfind, if_false]
    refine iff_of_true ?_ fun vol h => by cases h
    rintro ⟨e, he⟩
    rw [deleteVolume_eq, hnone] at he
    cases he
  | some vol =>
    simp only [Option.some.injEq, forall_eq']
    by_cases hrem : Removable cfg o vol
    · have hsome : prepareDelete cfg o volumeId d = .ok (some vol) := by
        simp only [prepareDelete, hid, hvalid, hfind, hrem.1, hrem.2, if_false]
      rw [retriable_of_some hsome]
      exact ⟨fun h => ⟨fun _ => h, fun hn => absurd hrem hn⟩, fun h => h.1 hrem⟩
    obtain ⟨e, herror⟩ : ∃ e, prepareDelete cfg o volumeId d = .error e := by
      simp only [prepareDelete, hid, hvalid, hfind, if_false]
      cases hunused : checkUnused cfg vol with
      | error e => exact ⟨e, rfl⟩
      | ok u =>
        cases hstorage : HostPath.removeStorage o vol with
        | error e => exact ⟨_, rfl⟩
        | ok u => exact absurd ⟨hunused, hstorage⟩ hrem
    rw [retriable_of_error herror]
    exact ⟨fun h => ⟨fun hr => absurd hr hrem, fun _ => h⟩, fun h => h.2 hrem⟩

/-! ## Both calls -/

inductive Call where
  | create (req : CreateVolumeRequest) (o : CreateOutcome)
  | delete (volumeId : String) (o : DeleteOutcome)

def Retriable (cfg : Config) (d : Driver) : Call → Prop
  | .create req o => CreateRetriable cfg d req o
  | .delete volumeId o => DeleteRetriable cfg d volumeId o

def Recoverable (cfg : Config) (d : Driver) : Call → Prop
  | .create req o => CreateRecoverable cfg d req o
  | .delete volumeId o => DeleteRecoverable cfg d volumeId o

def AlwaysRetriable : Prop := ∀ cfg d c, Retriable cfg d c

/-- A call that creates a volume can be repeated exactly if it has failed before it touched the
volumes, for a request that can be fulfilled; a call that deletes one, exactly if the file is not left
behind. -/
theorem retriable_iff (cfg : Config) (d : Driver) (c : Call) :
    Retriable cfg d c ↔ Recoverable cfg d c := by
  cases c with
  | create req o => exact create_retriable_iff
  | delete volumeId o => exact delete_retriable_iff

/-- The state file cannot be written, and the volume of the failed call is in memory. -/
theorem not_alwaysRetriable : ¬ AlwaysRetriable := by
  intro h
  have hcall := h sampleConfig ⟨[], [], false, ∅, some sampleMap⟩
    (.create sampleRequest { allOk "v" with written := some ⟨"no space left on device", .cut⟩ })
  have hmem : (createVolume sampleConfig { allOk "v" with written := some ⟨"no space left on device", .cut⟩ }
      sampleRequest ⟨[], [], false, ∅, some sampleMap⟩).2.volumes ≠ [] := by
    decide +kernel
  have herror : (createVolume sampleConfig
      { allOk "v" with written := some ⟨"no space left on device", .cut⟩ } sampleRequest
      ⟨[], [], false, ∅, some sampleMap⟩).1 =
        .error ⟨.internal, "error writing state file: no space left on device"⟩ := by
    decide +kernel
  obtain ⟨v, hv⟩ := List.exists_mem_of_ne_nil _ hmem
  have hin := (hcall.1 ⟨_, herror⟩).2 v hv
  cases hin

end IOIsolation.Csi.Retry
