import IOIsolation.Sched.StaticInfo

/-!
# Sched.BlockRequest

What a pod asks of the disks of a node: reading the bandwidths of the annotation, weighing them with
the ratio tables of a disk (`getDeviceRequest`), placing unbound claims (`pack`), and putting the
requests of all volumes together (`getRequestByAnnotation`), once for a scheduling cycle and once for
the restart of the scheduler. The order of a loop over a map is an argument. Decoding the text of the
annotation is a parameter.
-/

namespace IOIsolation.Sched.BlockIo

open Lib

/-! ## The annotation -/

/-- Bandwidths as the annotation has them: an amount, and after a slash a block size. -/
structure BlockIoConfig where
  rbps : String
  wbps : String
  deriving DecidableEq

structure VolumeAnnoThroughput where
  requests : BlockIoConfig
  limits : BlockIoConfig
  deriving DecidableEq

abbrev PodAnnoThroughput : Type := Dict String VolumeAnnoThroughput

def blockIoConfigAnno : String := "blockio.kubernetes.io/resources"

/-- The block size of a bandwidth that names none, `4k`. -/
def defaultBlockSize : Amount := ⟨4000, some 4000⟩

def parseDiskRequestBandwidth [QuantityParser] (config : String) : Option (Amount × Amount) :=
  if config = "" then none
  else
    let bw := String.ofList (config.toList.takeWhile (· ≠ '/'))
    match config.toList.dropWhile (· ≠ '/') with
    | [] => (parseQuantity bw).map (·, defaultBlockSize)
    | _ :: bs =>
      let bs := if bs.getLast? = some 'B' then bs.dropLast else bs
      match parseQuantity bw, parseQuantity (String.ofList bs) with
      | some bw, some bs => some (bw, bs)
      | _, _ => none

/-- The loop of `FindMappingRatio`; `prev` is the entry before. -/
def findRatioFrom (bs : Amount) : Option MappingRatio → List MappingRatio → MappingRatio
  | prev, [] => prev.getD ⟨⟨32000, some 32000⟩, 1⟩
  | prev, r :: rs =>
    if bs.value = r.blockSize.value then r
    else if bs.value < r.blockSize.value then prev.getD r
    else findRatioFrom bs (some r) rs

def findMappingRatio (bs : Amount) (ratios : List MappingRatio) : MappingRatio :=
  findRatioFrom bs none ratios

/-! ## The request of one volume -/

def miB : ℚ := 1024 * 1024

def maxBtLimit : ℚ := 2 ^ 20

/-- One bandwidth on a disk: as it is asked for, its operations per second, and as the disk feels
it. -/
structure Rate where
  raw : ℚ
  iops : ℚ
  bps : ℚ
  deriving DecidableEq

def Rate.zero : Rate := ⟨0, 0, 0⟩

/-- A bandwidth of the annotation on a disk with these ratios. A block size that is no positive
integer counts as zero, and dividing by it panics. -/
def weigh [QuantityParser] [Rounding] (ratios : List MappingRatio) (config : String) :
    Outcome (Option Rate) :=
  match parseDiskRequestBandwidth config with
  | none => .done none
  | some (bw, bs) =>
    let bwValue := bw.asInt64.getD 0
    let found := findMappingRatio bs ratios
    let bsValue := found.blockSize.asInt64.getD 0
    if bsValue = 0 then .panic
    else .done (some {
      raw := fl (fl bwValue / miB)
      iops := fl (bwValue.tdiv bsValue)
      bps := fl (fl (fl bwValue / miB) * found.ratio) })

/-- A bandwidth below `min` is raised to it; the raw bandwidth then is that of `rawMin`. -/
def Rate.atLeast [Rounding] (min rawMin ratio : ℚ) (r : Rate) : Rate :=
  if r.bps < min then
    { raw := fl (rawMin / ratio), iops := fl (fl (fl (rawMin / ratio) * miB) / 4000), bps := min }
  else r

/-- Bandwidths of the two directions as a quantity, and the raw ones with their operations. -/
def weighted (i o : Rate) : Quantity := ⟨i.bps, o.bps, 0, 0⟩

def unweighted (i o : Rate) : Quantity := ⟨i.raw, o.raw, i.iops, o.iops⟩

/-- `getDeviceRequest` on a new request for the disk. The write direction differs from the read
direction in two places of the source: an open write limit is divided by the ratio, and a raised write
bandwidth has the raw bandwidth of the read default. -/
def getDeviceRequest [QuantityParser] [Rounding] (dev : String) (disk : DiskInfo)
    (anno : VolumeAnnoThroughput) : Outcome IOResourceRequest := do
  let rr ← weigh disk.readRatio anno.requests.rbps
  let wr ← weigh disk.writeRatio anno.requests.wbps
  let rl ← weigh disk.readRatio anno.limits.rbps
  let wl ← weigh disk.writeRatio anno.limits.wbps
  if rr.isNone ∧ rl.isNone ∧ wr.isNone ∧ wl.isNone then
    let zero : Quantity := ⟨0, 0, 0, 0⟩
    return { ioType := .diskIo, workloadType := .beIndex,
             devRequest := some ⟨dev, some zero, some zero, some zero, some zero⟩ }
  else
    let rratio := (findMappingRatio defaultBlockSize disk.readRatio).ratio
    let wratio := (findMappingRatio defaultBlockSize disk.writeRatio).ratio
    let reqIn := (rr.getD .zero).atLeast disk.beDefaultRead disk.beDefaultRead rratio
    let reqOut := (wr.getD .zero).atLeast disk.beDefaultWrite disk.beDefaultRead wratio
    let limIn := (rl.getD ⟨fl (maxBtLimit / rratio), fl (fl (maxBtLimit * miB / rratio) / 4000),
      maxBtLimit⟩).atLeast disk.beDefaultRead disk.beDefaultRead rratio
    let limOut := (wl.getD ⟨fl (maxBtLimit / wratio), fl (fl (maxBtLimit * miB / wratio) / 4000),
      fl (maxBtLimit / wratio)⟩).atLeast disk.beDefaultWrite disk.beDefaultRead wratio
    return { ioType := .diskIo, workloadType := .gaIndex,
             devRequest := some ⟨dev, some (weighted reqIn reqOut), some (weighted limIn limOut),
               some (unweighted reqIn reqOut), some (unweighted limIn limOut)⟩ }

def parseBEIOAnnotations (dev : String) : IOResourceRequest :=
  { ioType := .diskIo, workloadType := .beIndex, devRequest := some ⟨dev, none, none, none, none⟩ }

/-! ## Putting requests together -/

abbrev Requests : Type := Dict String IOResourceRequest

/-- Bandwidths are added, operations only in the raw quantities. -/
def addBps [Rounding] (q r : Option Quantity) : Quantity :=
  let q := q.getD ⟨0, 0, 0, 0⟩
  let r := r.getD ⟨0, 0, 0, 0⟩
  { q with inbps := fl (q.inbps + r.inbps), outbps := fl (q.outbps + r.outbps) }

def addRaw [Rounding] (q r : Option Quantity) : Quantity :=
  let q := q.getD ⟨0, 0, 0, 0⟩
  let r := r.getD ⟨0, 0, 0, 0⟩
  ⟨fl (q.inbps + r.inbps), fl (q.outbps + r.outbps), fl (q.iniops + r.iniops),
    fl (q.outiops + r.outiops)⟩

/-- What `addPodRequest` does on a device both maps have. Once a device has a guaranteed request it
stays guaranteed; the quantities of a guaranteed `req` are never nil. -/
def mergeRequest [Rounding] (cur req : IOResourceRequest) : IOResourceRequest :=
  match cur.devRequest, req.devRequest with
  | some d, some e =>
    if req.workloadType = .gaIndex then
      { cur with
        workloadType := .gaIndex
        devRequest := some { d with
          request := some (addBps d.request e.request)
          limit := some (addBps d.limit e.limit)
          rawRequest := some (addRaw d.rawRequest e.rawRequest)
          rawLimit := some (addRaw d.rawLimit e.rawLimit) } }
    else if req.workloadType = .beIndex ∧ cur.workloadType ≠ .gaIndex then
      { cur with workloadType := .beIndex }
    else cur
  | _, _ => cur

def addPodRequest [Rounding] (m reqs : Requests) : Requests := Dict.unionWith mergeRequest m reqs

/-- The volume's request on a registered disk is added: the annotated one, or best effort. -/
def addVolume [QuantityParser] [Rounding] (anno : PodAnnoThroughput) (dev : String) (disk : DiskInfo)
    (vol : String) (requests : Requests) : Outcome Requests :=
  match anno.lookup vol with
  | some v => do
    let request ← getDeviceRequest dev disk v
    return addPodRequest requests (Finmap.singleton dev request)
  | none => return addPodRequest requests (Finmap.singleton dev (parseBEIOAnnotations dev))

/-- The loop of `getVolumeRequestFromAnno` over volumes and their devices. -/
def volumeRequests [QuantityParser] [Rounding] (anno : PodAnnoThroughput) (disks : Disks) :
    List (String × String) → Requests → Outcome Requests
  | [], requests => .done requests
  | (vol, dev) :: rest, requests =>
    match disks.lookup dev with
    | some disk => do volumeRequests anno disks rest (← addVolume anno dev disk vol requests)
    | none =>
      -- an annotated volume on an unknown device is passed over, another one is best effort there
      if vol ∈ anno then volumeRequests anno disks rest requests
      else volumeRequests anno disks rest
        (addPodRequest requests (Finmap.singleton dev (parseBEIOAnnotations dev)))

/-- The entries of a map in the order of a loop over it. -/
def inOrder (order : List String) (mapping : Dict String String) : List (String × String) :=
  order.filterMap fun vol => (mapping.lookup vol).map (vol, ·)

/-- `getVolumeRequestFromAnno`: without a volume the pod is best effort on the default disk. -/
def getVolumeRequestFromAnno [QuantityParser] [Rounding] (mapping : Dict String String)
    (order : List String) (anno : PodAnnoThroughput) (info : NodeInfo) : Outcome Requests :=
  if mapping = ∅ then
    match info.disksStatus.lookup info.emptyDirDevice with
    | some _ => .done (Finmap.singleton info.emptyDirDevice (parseBEIOAnnotations info.emptyDirDevice))
    | none => .done ∅
  else volumeRequests anno info.disksStatus (inOrder order mapping) ∅

/-! ## Volumes -/

/-- The API answers one `GetRequestByAnnotation` gets, and the orders of its loops over maps. -/
structure RequestAnswers where
  initProvisioner : Volume → ProvisionerAnswer
  boundProvisioner : Volume → ProvisionerAnswer
  totalProvisioner : Volume → ProvisionerAnswer
  restProvisioner : Volume → ProvisionerAnswer
  boundPVC : Volume → Except String PersistentVolumeClaim
  restPVC : Volume → Except String PersistentVolumeClaim
  deviceOrder : List String
  volumeOrder : List String

/-- `getDiskFromContext`: the devices of the volumes of a pod that already runs. -/
def getDiskFromContext (claims : Dict String StorageInfo) (ns defaultDev : String)
    (provisioner : Volume → ProvisionerAnswer) :
    List Volume → Dict String String → Outcome (Dict String String)
  | [], mapping => .done mapping
  | vol :: vols, mapping =>
    match vol.claimName with
    | some pvc => do
      match ← isIOIProvisioner (provisioner vol) with
      | .ok true =>
        match claims.lookup (claimKey pvc ns) with
        | some s =>
          getDiskFromContext claims ns defaultDev provisioner vols (mapping.insert vol.name s.devID)
        | none => getDiskFromContext claims ns defaultDev provisioner vols mapping
      | _ => getDiskFromContext claims ns defaultDev provisioner vols mapping
    | none =>
      if vol.emptyDir then
        getDiskFromContext claims ns defaultDev provisioner vols (mapping.insert vol.name defaultDev)
      else getDiskFromContext claims ns defaultDev provisioner vols mapping

def emptyDirRequests [QuantityParser] [Rounding] (anno : PodAnnoThroughput) (dev : String)
    (disk : DiskInfo) : List Volume → Requests → Outcome Requests
  | [], requests => .done requests
  | vol :: vols, requests =>
    if vol.emptyDir then do
      emptyDirRequests anno dev disk vols (← addVolume anno dev disk vol.name requests)
    else emptyDirRequests anno dev disk vols requests

/-- `getBoundedPVCInfo`: the claims that already have a device. -/
def getBoundedPVCInfo (claims : Dict String StorageInfo) (ns node : String) (a : RequestAnswers) :
    List Volume → Dict String PVCInfo → Outcome (Except String (Dict String PVCInfo))
  | [], pvcToDevice => .done (.ok pvcToDevice)
  | vol :: vols, pvcToDevice =>
    match vol.claimName with
    | none => getBoundedPVCInfo claims ns node a vols pvcToDevice
    | some pvc => do
      match ← isIOIProvisioner (a.boundProvisioner vol) with
      | .ok true =>
        match a.boundPVC vol with
        | .error err => return .error s!"failed to get pvc {pvc} when getting bound info, err: {err}"
        | .ok claim =>
          match claim.selectedNode with
          | none => getBoundedPVCInfo claims ns node a vols pvcToDevice
          | some n =>
            if n ≠ node then return .error s!"PVC {pvc} is bounded to node {n}, not {node}"
            else if claim.phase = .pending then
              getBoundedPVCInfo claims ns node a vols pvcToDevice
            else
              match claims.lookup (claimKey pvc ns) with
              | none => getBoundedPVCInfo claims ns node a vols pvcToDevice
              | some v =>
                let info := ⟨v.devID, claim.requestedStorage.getD 0, true⟩
                getBoundedPVCInfo claims ns node a vols (pvcToDevice.insert (claimKey pvc ns) info)
      | _ => getBoundedPVCInfo claims ns node a vols pvcToDevice

/-- `getBoundedTotalRequests`: the requests of the claims that already have a device. -/
def getBoundedTotalRequests [QuantityParser] [Rounding] (anno : PodAnnoThroughput) (ns : String)
    (pvcToDevice : Dict String PVCInfo) (disks : Disks)
    (provisioner : Volume → ProvisionerAnswer) : List Volume → Requests → Outcome Requests
  | [], requests => .done requests
  | vol :: vols, requests =>
    match vol.claimName.bind fun pvc => pvcToDevice.lookup (claimKey pvc ns) with
    | none => getBoundedTotalRequests anno ns pvcToDevice disks provisioner vols requests
    | some info => do
      match ← isIOIProvisioner (provisioner vol) with
      | .ok true =>
        match disks.lookup info.devID with
        | none => getBoundedTotalRequests anno ns pvcToDevice disks provisioner vols requests
        | some disk =>
          getBoundedTotalRequests anno ns pvcToDevice disks provisioner vols
            (← addVolume anno info.devID disk vol.name requests)
      | _ => getBoundedTotalRequests anno ns pvcToDevice disks provisioner vols requests

/-! ## Placing the other claims -/

structure PackVolume where
  name : String
  pvcName : String
  be : Bool
  rawRead : ℚ
  rawWrite : ℚ
  blockSizeRead : Amount
  blockSizeWrite : Amount
  size : Int
  deriving DecidableEq

def PackVolume.getVolume [Rounding] (vol : PackVolume) : ℚ :=
  fl (fl (vol.rawRead + vol.rawWrite) * fl vol.size)

/-- The bandwidths the packer places a volume by; without both it is best effort. -/
def packVolumeOf [QuantityParser] [Rounding] (anno : PodAnnoThroughput) (vol key : String)
    (size : Int) : PackVolume :=
  let rate : Option (Amount × Amount) → ℚ × Amount
    | some (bw, bs) => (fl (fl (bw.asInt64.getD 0 : Int) / miB), bs)
    | none => (0, ⟨0, some 0⟩)
  let read := (anno.lookup vol).bind fun v => parseDiskRequestBandwidth v.requests.rbps
  let write := (anno.lookup vol).bind fun v => parseDiskRequestBandwidth v.requests.wbps
  { name := vol, pvcName := key, be := read.isNone || write.isNone
    rawRead := (rate read).1, rawWrite := (rate write).1
    blockSizeRead := (rate read).2, blockSizeWrite := (rate write).2, size := size }

/-- `getRestVolumes`: the volumes of claims without a device. -/
def getRestVolumes [QuantityParser] [Rounding] (anno : PodAnnoThroughput) (ns : String)
    (pvcToDevice : Dict String PVCInfo) (a : RequestAnswers) :
    List Volume → Outcome (Except String (List PackVolume))
  | [] => .done (.ok [])
  | vol :: vols =>
    match vol.claimName with
    | none => getRestVolumes anno ns pvcToDevice a vols
    | some pvc => do
      match ← isIOIProvisioner (a.restProvisioner vol) with
      | .ok true =>
        if claimKey pvc ns ∈ pvcToDevice then getRestVolumes anno ns pvcToDevice a vols
        else
          match a.restPVC vol with
          | .error err =>
            return .error s!"failed to get pvc {pvc} when getting bound info, err: {err}"
          | .ok claim =>
            let rest ← getRestVolumes anno ns pvcToDevice a vols
            return rest.map fun rest =>
              packVolumeOf anno vol.name (claimKey pvc ns) (claim.requestedStorage.getD 0) :: rest
      | _ => getRestVolumes anno ns pvcToDevice a vols

/-- The storage a pod asks for on a disk: that of its claims without a device. -/
def newStorage (pvcToDevice : Dict String PVCInfo) (dev : String) : Int :=
  Dict.total (fun _ info => if ¬ info.reuse ∧ info.devID = dev then info.reqStorage else 0) pvcToDevice

/-- `getRestDisksStatus`: the disks without what the pod already asks of them. -/
def getRestDisksStatus [Rounding] (disks : Disks) (requests : Requests)
    (pvcToDevice : Dict String PVCInfo) : Disks :=
  Dict.mapVals (fun dev disk =>
    let q := (((requests.lookup dev).filter fun r => r.workloadType = .gaIndex).bind
      fun r => r.devRequest.bind (·.request)).getD ⟨0, 0, 0, 0⟩
    let rest := disk.setPools { disk.toPools with ga := { disk.ga with
      inBps := fl (disk.ga.inBps - q.inbps)
      outBps := fl (disk.ga.outBps - q.outbps)
      total := fl (disk.ga.total - fl (q.inbps + q.outbps)) } }
    { rest with
      requestedDiskSpace := disk.requestedDiskSpace + newStorage pvcToDevice dev
      mountPath := "" }) disks

structure PackDevice where
  ga : IOPoolStatus
  be : IOPoolStatus
  bem : IOPoolStatus
  size : Int
  deriving DecidableEq

def packDeviceOf [Rounding] (disk : DiskInfo) : PackDevice :=
  { ga := disk.ga, be := disk.be, bem := disk.beMin, size := disk.capacity - disk.requestedDiskSpace }

/-- The bandwidths of the volume as the disk feels them. -/
def PackVolume.transRead [Rounding] (vol : PackVolume) (disk : DiskInfo) : ℚ :=
  fl (vol.rawRead * (findMappingRatio vol.blockSizeRead disk.readRatio).ratio)

def PackVolume.transWrite [Rounding] (vol : PackVolume) (disk : DiskInfo) : ℚ :=
  fl (vol.rawWrite * (findMappingRatio vol.blockSizeWrite disk.writeRatio).ratio)

def canFit [Rounding] (ds : PackDevice) (vol : PackVolume) (disk : DiskInfo) : Bool :=
  let (read, write) := (vol.transRead disk, vol.transWrite disk)
  if vol.be then
    fl (ds.be.inBps / (ds.be.num + 1)) > ds.bem.inBps &&
      fl (ds.be.outBps / (ds.be.num + 1)) > ds.bem.outBps &&
      fl (ds.be.total / (ds.be.num + 1)) > ds.bem.total && ds.size ≥ vol.size &&
      !ds.be.underPressure
  else
    ds.ga.inBps ≥ read && ds.ga.outBps ≥ write && ds.ga.total ≥ fl (read + write) &&
      ds.size ≥ vol.size && !ds.ga.underPressure

def packOn [Rounding] (ds : PackDevice) (vol : PackVolume) (disk : DiskInfo) : PackDevice :=
  let (read, write) := (vol.transRead disk, vol.transWrite disk)
  let ga := if vol.be then ds.ga else { ds.ga with
    inBps := fl (ds.ga.inBps - read)
    outBps := fl (ds.ga.outBps - write)
    total := fl (ds.ga.total - fl (read + write)) }
  { ds with ga := ga, size := ds.size - vol.size }

/-- The inner loop of `Pack`: the first device the volume fits on. -/
def firstFit [Rounding] (devices : Disks) (vol : PackVolume) :
    List String → Dict String PackDevice → Option (String × Dict String PackDevice)
  | [], _ => none
  | name :: names, ds =>
    match devices.lookup name, ds.lookup name with
    | some disk, some dev =>
      if canFit dev vol disk then some (name, ds.insert name (packOn dev vol disk))
      else firstFit devices vol names ds
    | _, _ => firstFit devices vol names ds

/-- The outer loop of `Pack`: the devices of the volumes, and of their claims. -/
def packLoop [Rounding] (devices : Disks) (devs : List String) :
    List PackVolume → Dict String PackDevice → Dict String String → Dict String PVCInfo →
      Option (Dict String String × Dict String PVCInfo)
  | [], _, volToDev, allocation => some (volToDev, allocation)
  | vol :: vols, ds, volToDev, allocation =>
    match firstFit devices vol devs ds with
    | some (name, ds) => packLoop devices devs vols ds (volToDev.insert vol.name name)
        (allocation.insert vol.pvcName ⟨name, vol.size, false⟩)
    | none =>
      if vol.pvcName ∈ allocation then packLoop devices devs vols ds volToDev allocation else none

/-- `Pack`: large volumes first, on the disks with the most guaranteed bandwidth first. -/
def pack [Rounding] (devices : Disks) (order : List String) (vols : List PackVolume) :
    Option (Dict String String × Dict String PVCInfo) :=
  let total dev := (devices.lookup dev).elim 0 fun disk => disk.ga.total
  packLoop devices ((order.filter (· ∈ devices)).insertionSort fun x y => total y ≤ total x)
    (vols.insertionSort fun v w => w.getVolume ≤ v.getVolume)
    (Dict.mapVals (fun _ disk => packDeviceOf disk) devices) ∅ ∅

/-! ## All requests of a pod -/

/-- Step 3 of `GetRequestByAnnotation`: the claims without a device are placed. -/
def placeRest [QuantityParser] [Rounding] (info : NodeInfo) (anno : PodAnnoThroughput) (ns : String)
    (a : RequestAnswers) (vols : List Volume) (requests : Requests) (pvcToDevice : Dict String PVCInfo) :
    Outcome (Except String (Requests × Dict String PVCInfo)) := do
  match ← getRestVolumes anno ns pvcToDevice a vols with
  | .error err => return .error err
  | .ok [] => return .ok (requests, pvcToDevice)
  | .ok rest =>
    match pack (getRestDisksStatus info.disksStatus requests pvcToDevice) a.deviceOrder rest with
    | none => return .error "cannot pack pvc volume to device"
    | some (volToDev, restPvcToDevice) =>
      let restRequests ← getVolumeRequestFromAnno volToDev a.volumeOrder anno info
      return .ok (addPodRequest requests restRequests, restPvcToDevice ∪ pvcToDevice)

/-- `GetRequestByAnnotation` in a scheduling cycle, on the annotation `anno` of the pod. -/
def getCycleRequest [QuantityParser] [Rounding] (node : String) (info : NodeInfo)
    (claims : Dict String StorageInfo) (pod : Pod) (anno : PodAnnoThroughput) (a : RequestAnswers) :
    Outcome (Except String (Requests × Dict String PVCInfo)) :=
  match info.disksStatus.lookup info.emptyDirDevice with
  | none =>
    let dev := info.emptyDirDevice
    .done (.error s!"emptyDir's disk {dev} not registed in node {node}")
  | some emptyDirInfo => do
    let requests ← emptyDirRequests anno info.emptyDirDevice emptyDirInfo pod.volumes ∅
    match ← getBoundedPVCInfo claims pod.ns node a pod.volumes ∅ with
    | .error err =>
      let name := pod.name
      return .error s!"unable to schedule pod {name}: {err}"
    | .ok pvcToDevice =>
      let existVolReq ← getBoundedTotalRequests anno pod.ns pvcToDevice info.disksStatus
        a.totalProvisioner (if pvcToDevice = ∅ then [] else pod.volumes) ∅
      match ← placeRest info anno pod.ns a pod.volumes (addPodRequest requests existVolReq)
          pvcToDevice with
      | .error err => return .error err
      | .ok (requests, pvcToDevice) =>
        -- a pod with neither claims nor emptyDir volumes is best effort on the default device
        if pvcToDevice = ∅ ∧ ¬ pod.volumes.any (·.emptyDir) then
          return .ok (addPodRequest requests (Finmap.singleton info.emptyDirDevice
            (parseBEIOAnnotations info.emptyDirDevice)), pvcToDevice)
        else return .ok (requests, pvcToDevice)

/-- `GetRequestByAnnotation` at the restart of the scheduler. -/
def getInitRequest [QuantityParser] [Rounding] (info : NodeInfo) (claims : Dict String StorageInfo)
    (pod : Pod)
    (anno : PodAnnoThroughput) (provisioner : Volume → ProvisionerAnswer) (order : List String) :
    Outcome Requests := do
  let mapping ← getDiskFromContext claims pod.ns info.emptyDirDevice provisioner pod.volumes ∅
  getVolumeRequestFromAnno mapping order anno info

/-- The annotation of the pod; `decode` is what reading a text leaves, also where it fails. -/
def annotationOf (decode : String → PodAnnoThroughput) (pod : Pod) : PodAnnoThroughput :=
  ((pod.annotations.lookup blockIoConfigAnno).map decode).getD ∅

def getRequestByAnnotation [QuantityParser] [Rounding] (decode : String → PodAnnoThroughput)
    (ps : Resource)
    (claims : Dict String StorageInfo) (pod : Pod) (a : RequestAnswers) (init : Bool) :
    Outcome (Except String (Requests × Option (Dict String PVCInfo))) := do
  if init then
    let requests ← getInitRequest ps.info claims pod (annotationOf decode pod) a.initProvisioner
      a.volumeOrder
    return .ok (requests, none)
  else
    let r ← getCycleRequest ps.nodeName ps.info claims pod (annotationOf decode pod) a
    return r.map fun (requests, pvcToDevice) => (requests, some pvcToDevice)

/-- `AdmitPod`; `order` is the order of the loop over the requested disks. -/
def admitPod [QuantityParser] [Rounding] (decode : String → PodAnnoThroughput) (ps : Resource)
    (claims : Dict String StorageInfo) (pod : Pod) (a : RequestAnswers) (order : List String) :
    Outcome (Except String RequestInfo) := do
  match ← getRequestByAnnotation decode ps claims pod a false with
  | .error err => return .error err
  | .ok (_, none) => return .error "pvcMapping cannot convert to pvcToDevice type"
  | .ok (requests, some pvcToDevice) =>
    let entries := order.filterMap fun dev => (requests.lookup dev).map fun req =>
      (⟨dev, ⟨req, newStorage pvcToDevice dev⟩⟩ : Sigma fun _ : String => DiskRequest)
    return .ok { resourceRequest := entries.toAList, pvcToDevice := pvcToDevice }

/-! ## What a successful call has done -/

variable {a : RequestAnswers} {anno : PodAnnoThroughput} {info : NodeInfo}
  {pvcs : Dict String PVCInfo}

theorem placeRest_cases [QuantityParser] [Rounding] {ns : String} {vols : List Volume} {m m' : Requests}
    {bound : Dict String PVCInfo}
    (h : placeRest info anno ns a vols m bound = .done (.ok (m', pvcs))) :
    ∃ rest, getRestVolumes anno ns bound a vols = .done (.ok rest) ∧
      (rest = [] ∧ m' = m ∧ pvcs = bound ∨ rest ≠ [] ∧ ∃ volToDev alloc restRequests,
          pack (getRestDisksStatus info.disksStatus m bound) a.deviceOrder rest =
              some (volToDev, alloc) ∧
            getVolumeRequestFromAnno volToDev a.volumeOrder anno info = .done restRequests ∧
            m' = addPodRequest m restRequests ∧ pvcs = alloc ∪ bound) := by
  simp only [placeRest, Outcome.bind_eq_done] at h
  obtain ⟨r, hrest, h⟩ := h
  cases r with
  | error e => cases h
  | ok rest =>
    refine ⟨rest, hrest, ?_⟩
    cases rest with
    | nil =>
      cases h
      exact .inl ⟨rfl, rfl, rfl⟩
    | cons x xs =>
      refine .inr ⟨List.cons_ne_nil x xs, ?_⟩
      cases hpack : pack (getRestDisksStatus info.disksStatus m bound) a.deviceOrder (x :: xs) with
      | none => simp [hpack] at h
      | some p =>
        obtain ⟨volToDev, alloc⟩ := p
        simp only [hpack, Outcome.bind_eq_done] at h
        obtain ⟨restRequests, hreq, h⟩ := h
        cases h
        exact ⟨volToDev, alloc, restRequests, rfl, hreq, rfl, rfl⟩

theorem getCycleRequest_cases [QuantityParser] [Rounding] {node : String}
    {claims : Dict String StorageInfo} {pod : Pod} {requests : Requests}
    (h : getCycleRequest node info claims pod anno a = .done (.ok (requests, pvcs))) :
    ∃ disk m1 bound m2 m3, info.disksStatus.lookup info.emptyDirDevice = some disk ∧
      emptyDirRequests anno info.emptyDirDevice disk pod.volumes ∅ = .done m1 ∧
      getBoundedPVCInfo claims pod.ns node a pod.volumes ∅ = .done (.ok bound) ∧
      getBoundedTotalRequests anno pod.ns bound info.disksStatus a.totalProvisioner
        (if bound = ∅ then [] else pod.volumes) ∅ = .done m2 ∧
      placeRest info anno pod.ns a pod.volumes (addPodRequest m1 m2) bound =
        .done (.ok (m3, pvcs)) ∧
      requests = if pvcs = ∅ ∧ ¬ pod.volumes.any (·.emptyDir) then
          addPodRequest m3 (Finmap.singleton info.emptyDirDevice
            (parseBEIOAnnotations info.emptyDirDevice))
        else m3 := by
  unfold getCycleRequest at h
  cases hdisk : info.disksStatus.lookup info.emptyDirDevice with
  | none => simp [hdisk] at h
  | some disk =>
    simp only [hdisk, Outcome.bind_eq_done] at h
    obtain ⟨m1, hempty, r, hbinfo, h⟩ := h
    cases r with
    | error e => cases h
    | ok bound =>
      simp only [Outcome.bind_eq_done] at h
      obtain ⟨m2, htotal, r, hplace, h⟩ := h
      cases r with
      | error e => cases h
      | ok p =>
        obtain ⟨m3, pvcs'⟩ := p
        refine ⟨disk, m1, bound, m2, m3, rfl, hempty, hbinfo, htotal, ?_⟩
        dsimp only at h
        split_ifs at h with hnone
        · cases h
          exact ⟨hplace, by rw [if_pos hnone]⟩
        · cases h
          exact ⟨hplace, by rw [if_neg hnone]⟩

end IOIsolation.Sched.BlockIo
