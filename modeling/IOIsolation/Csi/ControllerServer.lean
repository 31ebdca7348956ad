import IOIsolation.Csi.State
import IOIsolation.Lib.Path

/-!
# Csi.ControllerServer

Creating and deleting volumes. A call first finds out what to do without changing the driver, then
changes the volumes in memory and writes the state file, and at last brings the list of disks in use
up to date, whose failure is only logged.

Each call takes the outcomes of what it asks of the system as an argument.

* `ControllerServer.createVolume_eq`, `ControllerServer.deleteVolume_eq` — the calls in these parts.
* `ControllerServer.request_eq_ok`, `ControllerServer.prepareDelete_ok` — the requests that get as far
  as the volumes.
-/

namespace IOIsolation.Csi

open Lib KeyedList

/-! ## Disks in use -/

def deviceIDConfigMap : String := "volume-device-map"

/-- The list after a change, and whether it has to be written. -/
def calDeviceInUse (devInUse : List String) (deviceId : String) (inUse : Bool)
    (volumes : List Volume) : Bool × List String :=
  if inUse then
    if deviceId ∈ devInUse then (false, devInUse) else (true, devInUse ++ [deviceId])
  else if ∃ v ∈ volumes, v.deviceID = deviceId then (false, devInUse)
  else (true, devInUse.erase deviceId)

structure ConfigMapAccess where
  read : SysResult
  write : SysResult
  deriving DecidableEq

/-- An absent ConfigMap is created with the entry alone. -/
def updateVolumeDeviceMap (write : SysResult) (deviceInUse : List String)
    (cm : Option ConfigMap) : Except Status Unit × Option ConfigMap :=
  match write with
  | some e => (.error (plain e), cm)
  | none =>
    match cm with
    | none => (.ok (), some ⟨∅, some deviceInUse⟩)
    | some cm => (.ok (), some { cm with deviceInUse := some deviceInUse })

/-- The list of an absent ConfigMap or entry is empty. -/
def curDeviceInUse (cm : Option ConfigMap) : List String :=
  match cm with
  | none => []
  | some cm => cm.deviceInUse.getD []

def updateDeviceInUse (o : ConfigMapAccess) (deviceId : String) (inUse : Bool)
    (volumes : List Volume) (cm : Option ConfigMap) : Except Status Unit × Option ConfigMap :=
  match o.read with
  | some e =>
    (.error (plain ("failed to get ConfigMap: " ++ deviceIDConfigMap ++ " due to " ++ e)), cm)
  | none =>
    match calDeviceInUse (curDeviceInUse cm) deviceId inUse volumes with
    | (true, new) => updateVolumeDeviceMap o.write new cm
    | (false, _) => (.ok (), cm)

/-! ## Requests -/

structure VolumeCapability where
  block : Bool
  mount : Bool
  singleNodeSingleWriter : Bool
  deriving DecidableEq

/-- The parameters are the ones the driver reads. -/
structure CreateVolumeRequest where
  name : String
  volumeCapabilities : Option (List VolumeCapability)
  requiredBytes : Int
  pvcName : String
  pvcNamespace : String
  storageKind : String
  deriving DecidableEq

/-- The context names the disk and the path of the volume. -/
structure CreateVolumeResponse where
  volumeId : String
  capacityBytes : Int
  annoDeviceID : String
  annoVolPath : String
  deriving DecidableEq

inductive Stat where
  | found
  | missing
  | failed (e : String)
  deriving DecidableEq

structure CreateOutcome where
  configMapRead : SysResult
  uuid : Except String String
  mkdirAll : SysResult
  stat : Stat
  fallocate : SysResult
  attachFileDevice : SysResult
  written : WriteResult
  deviceInUse : ConfigMapAccess

structure DeleteOutcome where
  detachFileDevice : SysResult
  removeAll : SysResult
  written : WriteResult
  deviceInUse : ConfigMapAccess
  deriving DecidableEq

def validateControllerServiceRequest (cfg : Config) : Except Status Unit :=
  if cfg.ephemeral then .error ⟨.invalidArgument, "unsupported capability CREATE_DELETE_VOLUME"⟩
  else .ok ()

namespace HostPath

/-- Make the directory, or the block file and its loop device. -/
def makeStorage (o : CreateOutcome) (volAccessType : AccessType) (path : String) :
    Except Status Unit :=
  match volAccessType with
  | .mountAccess =>
    match o.mkdirAll with
    | some e => .error (plain e)
    | none => .ok ()
  | .blockAccess =>
    let file : Except Status Unit :=
      match o.stat with
      | .found => .ok ()
      | .failed e => .error (plain ("failed to stat block device: " ++ path ++ ", " ++ e))
      | .missing =>
        match o.fallocate with
        | some e => .error (plain ("failed to create block device: " ++ e))
        | none => .ok ()
    match file with
    | .error e => .error e
    | .ok () =>
      match o.attachFileDevice with
      | some e => .error (plain ("failed to attach device " ++ path ++ ": " ++ e))
      | none => .ok ()

def allocate (cfg : Config) (o : CreateOutcome) (volAccessType : AccessType) (path : String)
    (cap : Int) : Except Status Unit :=
  if cap > cfg.maxVolumeSize then
    .error ⟨.outOfRange, "Requested capacity " ++ toString cap ++ " exceeds maximum allowed " ++
      toString cfg.maxVolumeSize⟩
  else makeStorage o volAccessType path

def createVolume (cfg : Config) (o : CreateOutcome) (volume : Volume) (d : Driver) :
    Except Status Volume × Driver :=
  match allocate cfg o volume.volAccessType volume.volPath volume.volSize with
  | .error e => (.error e, d)
  | .ok () =>
    match State.updateVolume o.written volume d with
    | (.error e, d) => (.error e, d)
    | (.ok (), d) => (.ok volume, d)

def removeStorage (o : DeleteOutcome) (vol : Volume) : Except Status Unit :=
  if vol.deviceID = "" then .error (plain "empty device ID: deviceID")
  else
    let detached : Except Status Unit :=
      match vol.volAccessType, o.detachFileDevice with
      | .blockAccess, some e =>
        .error (plain ("failed to remove loop device for file " ++ vol.volPath ++ ": " ++ e))
      | _, _ => .ok ()
    match detached with
    | .error e => .error e
    | .ok () =>
      match o.removeAll with
      | some e => .error (plain e)
      | none => .ok ()

def deleteVolume (o : DeleteOutcome) (volID : String) (d : Driver) : Except Status Unit × Driver :=
  match State.getVolumeByID volID d.volumes with
  | .error _ => (.ok (), d)
  | .ok vol =>
    match removeStorage o vol with
    | .error e => (.error e, d)
    | .ok () => State.deleteVolume o.written volID d

end HostPath

namespace ControllerServer

/-! ## Creating -/

def checkCreate (cfg : Config) (req : CreateVolumeRequest) : Except Status AccessType :=
  match validateControllerServiceRequest cfg with
  | .error e => .error e
  | .ok () =>
    match req.volumeCapabilities with
    | none => .error ⟨.invalidArgument, "Volume Capabilities are missing in the request"⟩
    | some caps =>
      if req.name = "" then .error ⟨.invalidArgument, "Name is missing in the request"⟩
      else if caps.any VolumeCapability.block && caps.any VolumeCapability.mount then
        .error ⟨.invalidArgument, "cannot have both block and mount access type"⟩
      -- The text has the two names the wrong way round.
      else if req.pvcName = "" ∨ req.pvcNamespace = "" then
        .error ⟨.invalidArgument, "pvcName(" ++ req.pvcNamespace ++ ") or pvcNamespace(" ++
          req.pvcName ++ ") can not be empty"⟩
      else .ok (if caps.any VolumeCapability.block then .blockAccess else .mountAccess)

/-- The first reading of the ConfigMap; here its absence is an error, too. -/
def readConfigMap (cfg : Config) (read : SysResult) (cm : Option ConfigMap) :
    Except Status ConfigMap :=
  match read, cm with
  | none, some cm => .ok cm
  | some e, _ =>
    .error ⟨.internal, "fail to get ConfigMap: " ++ deviceIDConfigMap ++ " due to " ++ e⟩
  | none, none =>
    .error ⟨.internal, "fail to get ConfigMap: " ++ deviceIDConfigMap ++ " due to configmaps " ++
      quote (deviceIDConfigMap ++ "-" ++ cfg.nodeID) ++ " not found"⟩

def findDevice (req : CreateVolumeRequest) (cm : ConfigMap) : Except Status (String × String) :=
  let pvc := req.pvcName ++ "." ++ req.pvcNamespace
  let (deviceId, path) :=
    match cm.data.lookup pvc with
    | none => ("", "")
    | some v =>
      match (v.toList.splitOn ':').map String.ofList with
      | [deviceId, path] => (deviceId, path)
      | _ => ("", "")
  if deviceId = "" then
    .error ⟨.invalidArgument, "no mapping device id found for pvc " ++ pvc ++
      ". Skip and wait for update."⟩
  else if path = "" then
    .error ⟨.invalidArgument, "no mount path found for pvc " ++ pvc ++
      ". Skip and wait for update."⟩
  else .ok (deviceId, path)

/-- The volume that a request asks for, once the request has passed the checks. -/
def newVolume (req : CreateVolumeRequest) (volAccessType : AccessType) (deviceId path volumeID :
    String) : Volume :=
  { volName := req.name
    volID := volumeID
    volSize := req.requiredBytes
    volPath := Path.join path volumeID
    volAccessType := volAccessType
    nodeID := ""
    kind := req.storageKind
    attached := false
    staged := []
    published := []
    deviceID := deviceId }

def request (cfg : Config) (o : CreateOutcome) (req : CreateVolumeRequest) (d : Driver) :
    Except Status Volume :=
  match checkCreate cfg req with
  | .error e => .error e
  | .ok volAccessType =>
    match readConfigMap cfg o.configMapRead d.configMap with
    | .error e => .error e
    | .ok cm =>
      match findDevice req cm with
      | .error e => .error e
      | .ok (deviceId, path) =>
        match State.getVolumeByName req.name d.volumes with
        | .ok _ =>
          .error ⟨.alreadyExists, "Volume with the same name: " ++ req.name ++ " already exist"⟩
        | .error _ =>
          match o.uuid with
          | .error _ => .error ⟨.internal, "failed to created new uuid"⟩
          | .ok volumeID => .ok (newVolume req volAccessType deviceId path volumeID)

def createVolume (cfg : Config) (o : CreateOutcome) (req : CreateVolumeRequest) (d : Driver) :
    Except Status CreateVolumeResponse × Driver :=
  match request cfg o req d with
  | .error e => (.error e, d)
  | .ok volume =>
    match HostPath.createVolume cfg o volume d with
    | (.error e, d) => (.error e, d)
    | (.ok vol, d) =>
      (.ok ⟨vol.volID, req.requiredBytes, vol.deviceID, vol.volPath⟩,
        { d with
          configMap := (updateDeviceInUse o.deviceInUse vol.deviceID true d.volumes d.configMap).2 })

def prepare (cfg : Config) (o : CreateOutcome) (req : CreateVolumeRequest) (d : Driver) :
    Except Status Volume :=
  match request cfg o req d with
  | .error e => .error e
  | .ok volume =>
    match HostPath.allocate cfg o volume.volAccessType volume.volPath volume.volSize with
    | .error e => .error e
    | .ok () => .ok volume

theorem createVolume_eq (cfg : Config) (o : CreateOutcome) (req : CreateVolumeRequest)
    (d : Driver) :
    createVolume cfg o req d =
      match prepare cfg o req d with
      | .error e => (.error e, d)
      | .ok vol =>
        match State.updateVolume o.written vol d with
        | (.error e, d) => (.error e, d)
        | (.ok (), d) =>
          (.ok ⟨vol.volID, req.requiredBytes, vol.deviceID, vol.volPath⟩, { d with
              configMap :=
                (updateDeviceInUse o.deviceInUse vol.deviceID true d.volumes d.configMap).2 }) := by
  unfold createVolume prepare
  cases request cfg o req d with
  | error e => rfl
  | ok volume =>
    dsimp only
    unfold HostPath.createVolume
    cases HostPath.allocate cfg o volume.volAccessType volume.volPath volume.volSize with
    | error e => rfl
    | ok u =>
      dsimp only
      rcases State.updateVolume o.written volume d with ⟨r, d'⟩
      cases r <;> rfl

/-- A request that the driver can fulfil as far as it can tell: complete, with a disk for its claim. -/
structure Complete (cfg : Config) (req : CreateVolumeRequest) (cm : ConfigMap)
    (volAccessType : AccessType) (device : String × String) : Prop where
  check : checkCreate cfg req = .ok volAccessType
  device : findDevice req cm = .ok device

variable {cfg : Config} {d : Driver} {vol : Volume}

theorem readConfigMap_eq_ok {read : SysResult} {cm : Option ConfigMap} {c : ConfigMap} :
    readConfigMap cfg read cm = .ok c ↔ read = none ∧ cm = some c := by
  cases read <;> cases cm <;> simp [readConfigMap]

variable {o : CreateOutcome} {req : CreateVolumeRequest}

/-- A request gets a volume if it is complete, new by its name, and given a uuid. -/
theorem request_eq_ok :
    request cfg o req d = .ok vol ↔
      ∃ cm volAccessType device volumeID, d.configMap = some cm ∧ o.configMapRead = none ∧
        Complete cfg req cm volAccessType device ∧
        find Volume.volName req.name d.volumes = none ∧ o.uuid = .ok volumeID ∧
        vol = newVolume req volAccessType device.1 device.2 volumeID := by
  constructor
  · intro h
    unfold request at h
    split at h
    · cases h
    rename_i volAccessType hcheck
    split at h
    · cases h
    rename_i cm hread
    obtain ⟨hok, hcm⟩ := readConfigMap_eq_ok.mp hread
    split at h
    · cases h
    rename_i deviceId path hdevice
    unfold State.getVolumeByName at h
    cases hname : find Volume.volName req.name d.volumes with
    | some v =>
      rw [hname] at h
      cases h
    | none =>
      rw [hname] at h
      cases huuid : o.uuid with
      | error e =>
        rw [huuid] at h
        cases h
      | ok volumeID =>
        rw [huuid] at h
        exact ⟨cm, volAccessType, (deviceId, path), volumeID, hcm, hok, ⟨hcheck, hdevice⟩, rfl,
          rfl, (Except.ok.inj h).symm⟩
  · rintro ⟨cm, volAccessType, device, volumeID, hcm, hok, hc, hname, huuid, rfl⟩
    have hread : readConfigMap cfg o.configMapRead d.configMap = .ok cm :=
      readConfigMap_eq_ok.mpr ⟨hok, hcm⟩
    simp only [request, hc.check, hread, hc.device, State.getVolumeByName, hname, huuid]

theorem prepare_eq_ok :
    prepare cfg o req d = .ok vol ↔ request cfg o req d = .ok vol ∧
      HostPath.allocate cfg o vol.volAccessType vol.volPath vol.volSize = .ok () := by
  unfold prepare
  cases hrequest : request cfg o req d with
  | error e => simp
  | ok volume =>
    dsimp only
    cases hallocate : HostPath.allocate cfg o volume.volAccessType volume.volPath volume.volSize with
    | error e =>
      simp only [reduceCtorEq, Except.ok.injEq, false_iff, not_and]
      rintro rfl
      rw [hallocate]
      exact fun h => by cases h
    | ok u =>
      simp only [Except.ok.injEq]
      constructor
      · rintro rfl
        exact ⟨rfl, hallocate⟩
      · rintro ⟨h, -⟩
        exact h

theorem createVolume_volumes (cfg : Config) (o : CreateOutcome) (req : CreateVolumeRequest)
    (d : Driver) :
    (createVolume cfg o req d).2.volumes =
      match prepare cfg o req d with
      | .error _ => d.volumes
      | .ok vol => put Volume.volID vol d.volumes := by
  rw [createVolume_eq]
  cases prepare cfg o req d with
  | error e => rfl
  | ok vol => rcases o.written with _ | ⟨e, _ | _ | _⟩ <;> rfl

theorem createVolume_file (cfg : Config) (o : CreateOutcome) (req : CreateVolumeRequest)
    (d : Driver) :
    (createVolume cfg o req d).2.file =
      match prepare cfg o req d with
      | .error _ => d.file
      | .ok vol => (State.updateVolume o.written vol d).2.file := by
  rw [createVolume_eq]
  cases prepare cfg o req d with
  | error e => rfl
  | ok vol => rcases o.written with _ | ⟨e, _ | _ | _⟩ <;> rfl

/-! ## Deleting -/

def checkUnused (cfg : Config) (vol : Volume) : Except Status Unit :=
  if (vol.attached || !vol.published.empty || !vol.staged.empty) && cfg.checkVolumeLifecycle then
    .error ⟨.internal, "Volume '" ++ vol.volID ++ "' is still used (attached: " ++
      toString vol.attached ++ ", staged: " ++ vol.staged.text ++ ", published: " ++
      vol.published.text ++ ") by '" ++ vol.nodeID ++ "' node"⟩
  else .ok ()

def deleteVolume (cfg : Config) (o : DeleteOutcome) (volumeId : String) (d : Driver) :
    Except Status Unit × Driver :=
  if volumeId = "" then (.error ⟨.invalidArgument, "Volume ID missing in request"⟩, d)
  else
    match validateControllerServiceRequest cfg with
    | .error e => (.error e, d)
    | .ok () =>
      match State.getVolumeByID volumeId d.volumes with
      -- The volume might have been deleted before.
      | .error _ => (.ok (), d)
      | .ok vol =>
        match checkUnused cfg vol with
        | .error e => (.error e, d)
        | .ok () =>
          match HostPath.deleteVolume o volumeId d with
          | (.error e, d) =>
            (.error (plain ("failed to delete volume " ++ volumeId ++ ": " ++ e.text)), d)
          | (.ok (), d) =>
            (.ok (),
              { d with
                configMap :=
                  (updateDeviceInUse o.deviceInUse vol.deviceID false d.volumes d.configMap).2 })

/-- What a deletion comes to before anything is changed: an error, nothing to do, or a volume whose
storage is gone. -/
def prepareDelete (cfg : Config) (o : DeleteOutcome) (volumeId : String) (d : Driver) :
    Except Status (Option Volume) :=
  if volumeId = "" then .error ⟨.invalidArgument, "Volume ID missing in request"⟩
  else
    match validateControllerServiceRequest cfg with
    | .error e => .error e
    | .ok () =>
      match KeyedList.find Volume.volID volumeId d.volumes with
      | none => .ok none
      | some vol =>
        match checkUnused cfg vol with
        | .error e => .error e
        | .ok () =>
          match HostPath.removeStorage o vol with
          | .error e => .error (plain ("failed to delete volume " ++ volumeId ++ ": " ++ e.text))
          | .ok () => .ok (some vol)

theorem deleteVolume_eq (cfg : Config) (o : DeleteOutcome) (volumeId : String) (d : Driver) :
    deleteVolume cfg o volumeId d =
      match prepareDelete cfg o volumeId d with
      | .error e => (.error e, d)
      | .ok none => (.ok (), d)
      | .ok (some vol) =>
        match State.dump o.written
            { d with volumes := remove Volume.volID volumeId d.volumes } with
        | (.error e, d) =>
          (.error (plain ("failed to delete volume " ++ volumeId ++ ": " ++ e.text)), d)
        | (.ok (), d) =>
          (.ok (), { d with
              configMap :=
                (updateDeviceInUse o.deviceInUse vol.deviceID false d.volumes d.configMap).2 }) := by
  unfold deleteVolume prepareDelete
  split_ifs
  · rfl
  cases validateControllerServiceRequest cfg with
  | error e => rfl
  | ok u =>
    unfold HostPath.deleteVolume State.deleteVolume State.getVolumeByID
    cases hfind : find Volume.volID volumeId d.volumes with
    | none => rfl
    | some vol =>
      dsimp only
      cases checkUnused cfg vol with
      | error e => rfl
      | ok u =>
        cases HostPath.removeStorage o vol with
        | error | ok => rfl

theorem deleteVolume_volumes (cfg : Config) (o : DeleteOutcome) (volumeId : String) (d : Driver) :
    (deleteVolume cfg o volumeId d).2.volumes =
      match prepareDelete cfg o volumeId d with
      | .ok (some _) => remove Volume.volID volumeId d.volumes
      | _ => d.volumes := by
  rw [deleteVolume_eq]
  rcases prepareDelete cfg o volumeId d with e | _ | vol
  · rfl
  · rfl
  · rcases o.written with _ | ⟨e, _ | _ | _⟩ <;> rfl

theorem deleteVolume_file (cfg : Config) (o : DeleteOutcome) (volumeId : String) (d : Driver) :
    (deleteVolume cfg o volumeId d).2.file =
      match prepareDelete cfg o volumeId d with
      | .ok (some _) =>
        (State.dump o.written { d with volumes := remove Volume.volID volumeId d.volumes }).2.file
      | _ => d.file := by
  rw [deleteVolume_eq]
  rcases prepareDelete cfg o volumeId d with e | _ | vol
  · rfl
  · rfl
  · rcases o.written with _ | ⟨e, _ | _ | _⟩ <;> rfl

theorem prepareDelete_ok {o : DeleteOutcome} {volumeId : String}
    (h : prepareDelete cfg o volumeId d = .ok (some vol)) :
    find Volume.volID volumeId d.volumes = some vol ∧ checkUnused cfg vol = .ok () := by
  unfold prepareDelete at h
  split_ifs at h
  split at h
  · cases h
  split at h
  · cases h
  rename_i vol' hfind
  split at h
  · cases h
  rename_i hunused
  split at h
  · cases h
  · obtain rfl := Option.some.inj (Except.ok.inj h)
    exact ⟨hfind, hunused⟩

end ControllerServer

/-! ## A claim and its volume -/

def sampleConfig : Config := ⟨"n", 100, false, false, true⟩

/-- The claim `p` has a place on the disk `d`. -/
def sampleMap : ConfigMap := ⟨Finmap.singleton "p.q" "d:/mnt", none⟩

def sampleRequest : CreateVolumeRequest := ⟨"pv", some [⟨false, true, false⟩], 10, "p", "q", ""⟩

def allOk (uuid : String) : CreateOutcome :=
  ⟨none, .ok uuid, none, .missing, none, none, none, ⟨none, none⟩⟩

end IOIsolation.Csi
