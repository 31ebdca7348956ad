import IOIsolation.Sched.EventHandler
import IOIsolation.Sched.RDTQuantity

/-!
# Sched.StaticInfo

How the caches of a node follow its `NodeStaticIOInfo`: building an entry from the configuration
and from what the API server knows of the volume claims (`getDeviceUsage`), adding and removing
disks of an entry (`updateDeviceNodeInfo`), and the handler of an update (`updateNodeStaticIOInfo`).
-/

namespace IOIsolation.Sched

open Lib

variable [QuantityParser]

namespace BlockIo

/-! ## The claims the API server knows -/

/-- The key of the ConfigMap that does not name a claim. -/
def deviceInUse : String := "DeviceInUse"

/-- The device of a ConfigMap entry `device:mountPath`; a text of any other shape stands for
itself. -/
def deviceOf (raw : String) : String :=
  match raw.toList.splitOn ':' with
  | [dev, _] => String.ofList dev
  | _ => raw

/-- `getBoundPVCsStorageRequest`: the requests of the bound claims of the provisioner on a node. -/
def getBoundPVCsStorageRequest (nodename : String)
    (pvcs : Except String (List PersistentVolumeClaim)) : Except String (Dict String Int) :=
  if nodename = "" then .error "node name cannot be empty"
  else
    match pvcs with
    | .error err => .error s!"get PVC error: {err}"
    | .ok items =>
      .ok (items.foldl (fun requests pvc =>
        if pvc.selectedNode = some nodename ∧ pvc.phase = .bound ∧
            pvc.storageProvisioner = some ioiProvisioner then
          match pvc.requestedStorage with
          | some qty => requests.insert (claimKey pvc.name pvc.ns) qty
          | none => requests
        else requests) ∅)

/-- What `getDeviceUsage` enters into the claim-to-device map. -/
def claimsOf (nodename : String) (requests : Dict String Int) (data : Dict String String) :
    Dict String StorageInfo :=
  Dict.filterMapVals (fun k raw =>
    if k = deviceInUse then none
    else some ⟨deviceOf raw, (requests.lookup k).getD 0, nodename⟩) data

/-- The space the claims of a map take on a device of a node. -/
def usedSpace (claims : Dict String StorageInfo) (nodename dev : String) : Int :=
  Dict.total (fun _ info =>
    if info.nodeName = nodename ∧ info.devID = dev then info.requestedStorage else 0) claims

structure UsageAnswers where
  pvcs : Except String (List PersistentVolumeClaim)
  getFail : Option String

/-- `getDeviceUsage`: the claims it finds, which also are entered into the claim-to-device map. The
text of the second error does not list the claims. -/
def getDeviceUsage (cms : ConfigMaps) (nodename : String) (a : UsageAnswers) :
    Except String (Dict String StorageInfo) :=
  match getBoundPVCsStorageRequest nodename a.pvcs with
  | .error err => .error err
  | .ok requests =>
    match getVolumeDeviceMap cms nodename a.getFail with
    | .notFound =>
      if requests ≠ ∅ then
        .error s!"internal error: volume-device-map is not found for nodename {nodename} but pvcs exist"
      else .ok ∅
    | .failed err =>
      .error s!"failed to get ConfigMap volume-device-map: nodename {nodename}, err: {err} "
    | .found data => .ok (claimsOf nodename requests data)

/-- The last default device in the order of a loop; `dev` is the one before the loop. -/
def lastDefault (devices : Dict String Device) (order : List String) (dev : String) : String :=
  order.foldl (fun cur d =>
    match devices.lookup d with
    | some info => if info.type = .defaultDevice then d else cur
    | none => cur) dev

/-- `AddCacheNodeInfo` as a whole; `order` is the order of its loop over the devices. -/
def buildNode (nodeName : String) (rc : ResourceConfigSpec) (size : String → Int)
    (order : List String) (a : UsageAnswers) (env : Env) : Except String (Resource × Env) :=
  match getDeviceUsage env.cms nodeName a with
  | .error err => .error err
  | .ok claims =>
    -- only the devices of the configuration are looked up in the usage
    let usage := Dict.mapVals (fun dev _ => usedSpace claims nodeName dev) rc.devices
    .ok (addCacheNodeInfo nodeName rc usage size (lastDefault rc.devices order ""),
      { env with ctx := { env.ctx with claimDevMap := claims ∪ env.ctx.claimDevMap } })

/-! ## Changing the disks of a node -/

def addedDisk (rc : ResourceConfigSpec) (size : String → Int) (info : Device) : DiskInfo :=
  { ga := {
      inBps := poolShare (100 - rc.bePool) info.capacityIn
      outBps := poolShare (100 - rc.bePool) info.capacityOut
      total := poolShare (100 - rc.bePool) info.capacityTotal
      underPressure := false
      num := 0 }
    be := beShare rc.bePool info
    diskName := info.name
    readRatio := parseMappingRatio info.readRatio
    writeRatio := parseMappingRatio info.writeRatio
    beDefaultRead := info.defaultIn
    beDefaultWrite := info.defaultOut
    capacity := size info.diskSize
    requestedDiskSpace := 0
    mountPath := info.mountPath }

def devicesAdded (old new : ResourceConfigSpec) : Dict String Device :=
  Dict.without new.devices old.devices

def devicesDeleted (old new : ResourceConfigSpec) : Dict String Device :=
  Dict.without old.devices new.devices

/-- `UpdateDeviceNodeInfo` on the entry of the node; `order` is the order of the loop over the new
devices. -/
def changeDisks (ps : Resource) (old new : ResourceConfigSpec) (size : String → Int)
    (order : List String) : Resource :=
  let adds := devicesAdded old new
  { ps with
    info := {
      disksStatus := Dict.without
        (Dict.mapVals (fun _ info => addedDisk new size info) adds ∪ ps.info.disksStatus)
        (devicesDeleted old new)
      emptyDirDevice := lastDefault adds order ps.info.emptyDirDevice } }

def updateDeviceNodeInfo (cache : Dict String Resource) (node : String)
    (old new : ResourceConfigSpec) (size : String → Int) (order : List String) :
    Dict String Resource × Except String (Dict String Device × Dict String Device) :=
  match cache.lookup node with
  | none => (cache, .error s!"node {node} not registered in cache")
  | some ps => (cache.insert node (changeDisks ps old new size order),
      .ok (devicesAdded old new, devicesDeleted old new))

end BlockIo

namespace RDT

/-- `AddCacheNodeInfo`; `InitNodeStatus` sets the same zeros again. -/
def addCacheNodeInfo (nodeName : String) (rc : ResourceConfigSpec) : Resource :=
  { nodeName := nodeName, rdtClassStatus := Dict.mapVals (fun _ _ => 0) rc.devices }

end RDT

/-! ## Handling an update -/

def handleOf : WorkloadIOType → HandleKind
  | .blockIo => .blockIo
  | .networkIo => .networkIo
  | .rdt => .rdt
  | .rdtQuantity => .rdtQuantity

/-- What one update brings besides the two objects: the API answers, and the orders of the loops over
maps. -/
structure StaticAnswers where
  usage : BlockIo.UsageAnswers
  patchFail : WorkloadIOType → Option String
  deviceOrder : List String
  podOrder : List String

/-- `AddCacheNodeInfo` and `InitNodeStatus` for a resource the old configuration does not have. -/
def addResource (node : String) (k : WorkloadIOType) (rc : ResourceConfigSpec)
    (size : String → Int) (a : StaticAnswers) (s : SchedState) :
    Outcome (SchedState × Except String Unit) :=
  match k with
  | .blockIo =>
    match BlockIo.buildNode node rc size a.deviceOrder a.usage s.env with
    | .error err => .done (s, .error err)
    | .ok (ps, env) => do
      let ps ← BlockIo.initNodeStatus ps env.ctx rc
      return ({ caches := { s.caches with blockIo := s.caches.blockIo.insert node ps }
                env := env }, .ok ())
  | .networkIo => do
    let ps ← NetworkIo.initNodeStatus
      (NetworkIo.addCacheNodeInfo node rc (BlockIo.lastDefault rc.devices a.deviceOrder ""))
      s.env.ctx rc
    return ({ s with caches := { s.caches with
      networkIo := s.caches.networkIo.insert node ps } }, .ok ())
  | .rdt =>
    .done ({ s with caches := { s.caches with
      rdt := s.caches.rdt.insert node (RDT.addCacheNodeInfo node rc) } }, .ok ())
  | .rdtQuantity => do
    let ps ← RDTQuantity.initNodeStatus (RDTQuantity.addCacheNodeInfo node rc) s.env.ctx a.podOrder
    return ({ s with caches := { s.caches with
      rdtQuantity := s.caches.rdtQuantity.insert node ps } }, .ok ())

/-- One turn of the loop of `UpdateNodeStaticIOInfo`: the state, and whether the loop goes on. Only
block I/O follows a change of its devices. -/
def updateResource (hash : ResourceConfigSpec → Nat) (node : String) (k : WorkloadIOType)
    (old : Option ResourceConfigSpec) (new : ResourceConfigSpec) (size : String → Int)
    (a : StaticAnswers) (s : SchedState) : Outcome (SchedState × Bool) :=
  match old with
  | some o =>
    if hash new ≠ hash o ∧ k = .blockIo then
      match BlockIo.updateDeviceNodeInfo s.caches.blockIo node o new size a.deviceOrder with
      | (_, .error _) => .done (s, false)
      | (cache, .ok _) =>
        .done ({ s with caches := { s.caches with blockIo := cache } }, (a.patchFail k).isNone)
    else .done (s, true)
  | none => do
    match ← addResource node k new size a s with
    | (s, .error _) => return (s, false)
    | (s, .ok ()) => return (s, (a.patchFail k).isNone)

/-- `UpdateNodeStaticIOInfo` on the resource configurations of a node; `order` is the order of the
loop over the new ones. -/
def updateNodeStaticIOInfo (hash : ResourceConfigSpec → Nat) (handles : List HandleKind)
    (node : String) (old new : Dict WorkloadIOType ResourceConfigSpec) (size : String → Int)
    (a : StaticAnswers) : List WorkloadIOType → SchedState → Outcome SchedState
  | [], s => .done s
  | k :: order, s =>
    match new.lookup k with
    | none => updateNodeStaticIOInfo hash handles node old new size a order s
    | some n =>
      if handleOf k ∈ handles then do
        let (s, continues) ← updateResource hash node k (old.lookup k) n size a s
        if continues then updateNodeStaticIOInfo hash handles node old new size a order s
        else return s
      else updateNodeStaticIOInfo hash handles node old new size a order s

end IOIsolation.Sched
