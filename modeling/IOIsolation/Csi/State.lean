import IOIsolation.Lib.Dict
import IOIsolation.Lib.KeyedList

/-!
# Csi.State

The state of the storage driver of a node: the volumes in memory, the state file that mirrors them,
the mount table of the node, and the ConfigMap that the driver shares with the scheduler.

A write of the state file that fails may leave the old content, a file that is cut off, or the new
content. A driver that starts again reads its volumes from the file, and stops if it is cut off.

* `State.updateVolume_volumes`, `State.updateVolume_mounts` — what a write of the file that fails
  does not take back.
-/

namespace IOIsolation.Csi

open Lib

/-! ## Ordered sets of strings -/

/-- Nothing keeps `add` from adding a string twice. -/
abbrev Strings : Type := List String

def Strings.add (s : Strings) (str : String) : Strings := s ++ [str]

def Strings.has (s : Strings) (str : String) : Bool := s.elem str

def Strings.empty (s : Strings) : Bool := s.isEmpty

def Strings.remove (s : Strings) (str : String) : Strings := s.erase str

def Strings.text (s : Strings) : String := "[" ++ " ".intercalate s ++ "]"

/-- `%q` of a string without special characters. -/
def quote (s : String) : String := "\"" ++ s ++ "\""

@[simp] theorem Strings.has_eq_false (s : Strings) (str : String) :
    s.has str = false ↔ str ∉ s := by
  simp [Strings.has]

@[simp] theorem Strings.empty_iff (s : Strings) : s.empty = true ↔ s = [] := by
  simp [Strings.empty]

/-! ## Answers -/

/-- The gRPC codes in use; an error without a code is `unknown`. -/
inductive Code where
  | invalidArgument
  | notFound
  | alreadyExists
  | failedPrecondition
  | outOfRange
  | internal
  | unknown
  deriving DecidableEq

def Code.text : Code → String
  | .invalidArgument => "InvalidArgument"
  | .notFound => "NotFound"
  | .alreadyExists => "AlreadyExists"
  | .failedPrecondition => "FailedPrecondition"
  | .outOfRange => "OutOfRange"
  | .internal => "Internal"
  | .unknown => "Unknown"

structure Status where
  code : Code
  message : String
  deriving DecidableEq

def Status.text (e : Status) : String :=
  if e.code = .unknown then e.message
  else "rpc error: code = " ++ e.code.text ++ " desc = " ++ e.message

/-- An error that is not made with a code. -/
def plain (message : String) : Status := ⟨.unknown, message⟩

/-- What a call to the system comes to: `none`, or the text of its error. -/
abbrev SysResult : Type := Option String

/-- What a write that failed has left of a file: `os.WriteFile` truncates the file when it opens it,
then writes, and may fail after that as well. -/
inductive FileLeft where
  | kept
  | cut
  | whole
  deriving DecidableEq

structure WriteError where
  message : String
  left : FileLeft
  deriving DecidableEq

abbrev WriteResult : Type := Option WriteError

/-! ## Volumes -/

inductive AccessType where
  | mountAccess
  | blockAccess
  deriving DecidableEq

structure Volume where
  volName : String
  volID : String
  volSize : Int
  volPath : String
  volAccessType : AccessType
  nodeID : String
  kind : String
  attached : Bool
  staged : Strings
  published : Strings
  deviceID : String
  deriving DecidableEq

/-- The ConfigMap `volume-device-map` of the node: the disks of the claims, and the list in the entry
`DeviceInUse`. -/
structure ConfigMap where
  data : Dict String String
  deviceInUse : Option (List String)
  deriving DecidableEq

structure Config where
  nodeID : String
  maxVolumeSize : Int
  ephemeral : Bool
  enableAttach : Bool
  checkVolumeLifecycle : Bool
  deriving DecidableEq

/-- An absent state file is one without volumes. -/
structure Driver where
  volumes : List Volume
  file : List Volume
  fileCut : Bool
  mounts : Finset String
  configMap : Option ConfigMap
  deriving DecidableEq

namespace State

def getVolumeByID (volID : String) (volumes : List Volume) : Except Status Volume :=
  match KeyedList.find Volume.volID volID volumes with
  | some vol => .ok vol
  | none => .error ⟨.notFound, "volume id " ++ volID ++ " does not exist in the volumes list"⟩

def getVolumeByName (volName : String) (volumes : List Volume) : Except Status Volume :=
  match KeyedList.find Volume.volName volName volumes with
  | some vol => .ok vol
  | none => .error ⟨.notFound, "volume name " ++ volName ++ " does not exist in the volumes list"⟩

def dump (written : WriteResult) (d : Driver) : Except Status Unit × Driver :=
  match written with
  | none => (.ok (), { d with file := d.volumes, fileCut := false })
  | some e => (.error ⟨.internal, "error writing state file: " ++ e.message⟩,
      match e.left with
      | .kept => d
      | .cut => { d with fileCut := true }
      | .whole => { d with file := d.volumes, fileCut := false })

def updateVolume (written : WriteResult) (update : Volume) (d : Driver) :
    Except Status Unit × Driver :=
  dump written { d with volumes := KeyedList.put Volume.volID update d.volumes }

def deleteVolume (written : WriteResult) (volID : String) (d : Driver) :
    Except Status Unit × Driver :=
  match KeyedList.find Volume.volID volID d.volumes with
  | some _ => dump written { d with volumes := KeyedList.remove Volume.volID volID d.volumes }
  | none => (.ok (), d)

def restore (d : Driver) : Option Driver :=
  if d.fileCut then none else some { d with volumes := d.file }

theorem restore_eq_some {d d' : Driver} (h : restore d = some d') :
    d' = { d with volumes := d.file } := by
  unfold restore at h
  split_ifs at h
  exact (Option.some.inj h).symm

theorem getVolumeByID_eq_ok {volID : String} {volumes : List Volume} {vol : Volume} :
    getVolumeByID volID volumes = .ok vol ↔
      KeyedList.find Volume.volID volID volumes = some vol := by
  unfold getVolumeByID
  split <;> simp_all

@[simp] theorem dump_volumes (written : WriteResult) (d : Driver) :
    (dump written d).2.volumes = d.volumes := by
  rcases written with _ | ⟨e, _ | _ | _⟩ <;> rfl

@[simp] theorem dump_mounts (written : WriteResult) (d : Driver) :
    (dump written d).2.mounts = d.mounts := by
  rcases written with _ | ⟨e, _ | _ | _⟩ <;> rfl

@[simp] theorem updateVolume_volumes (written : WriteResult) (update : Volume) (d : Driver) :
    (updateVolume written update d).2.volumes = KeyedList.put Volume.volID update d.volumes :=
  dump_volumes written _

@[simp] theorem updateVolume_mounts (written : WriteResult) (update : Volume) (d : Driver) :
    (updateVolume written update d).2.mounts = d.mounts :=
  dump_mounts written _

end State

end IOIsolation.Csi
