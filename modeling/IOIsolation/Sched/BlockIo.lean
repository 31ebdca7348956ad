import IOIsolation.Sched.Pools
import IOIsolation.Sched.Api
import IOIsolation.Sched.Context
import IOIsolation.Lib.Quantity
import Mathlib.Data.List.TakeWhile
import Mathlib.Data.Prod.Lex
import Mathlib.Order.WithBot
import Mathlib.Data.List.AList

/-!
# Sched.BlockIo

The block I/O handler: the disks of a node in the scheduler's cache, admission, reservation and
release of a pod, and the volume-to-device bookkeeping that goes with them. Every function takes
the lock model, so that one text is read both with and without the mutex of the shared context.

A Go map that a loop visits is an `AList`: its entries in the order of the loop.
-/

namespace IOIsolation.Sched.BlockIo

open Lib Finmap Outcome List

/-- How much of the disk's bandwidth a transfer in blocks of this size takes. -/
structure MappingRatio where
  blockSize : Amount
  ratio : ℚ
  deriving DecidableEq

/-- An entry of a ratio table as it is sorted: by block size. Entries of one block size are in the
order of their ratios; the source leaves it open. -/
abbrev RatioKey : Type := ℚ ×ₗ ℚ ×ₗ WithBot Int

/-- An entry without a block size or a positive ratio is left out. -/
def ratioKey [QuantityParser] (q : String) (r : ℚ) : Option RatioKey :=
  match parseQuantity q with
  | some bs => if r ≤ 0 then none else some (toLex (bs.value, toLex (r, bs.asInt64)))
  | none => none

def RatioKey.ratio (key : RatioKey) : MappingRatio :=
  ⟨⟨(ofLex key).1, (ofLex (ofLex key).2).2⟩, (ofLex (ofLex key).2).1⟩

def parseMappingRatio [QuantityParser] (ratio : Dict String ℚ) : List MappingRatio :=
  (Dict.sortedVals ratioKey ratio).map RatioKey.ratio

structure DiskInfo extends Pools where
  diskName : String
  readRatio : List MappingRatio
  writeRatio : List MappingRatio
  beDefaultRead : ℚ
  beDefaultWrite : ℚ
  capacity : Int
  requestedDiskSpace : Int
  mountPath : String
  deriving DecidableEq

def DiskInfo.setPools (disk : DiskInfo) (pools : Pools) : DiskInfo := { disk with toPools := pools }

@[simp] theorem DiskInfo.setPools_toPools (disk : DiskInfo) (pools : Pools) :
    (disk.setPools pools).toPools = pools := rfl
@[simp] theorem DiskInfo.setPools_self (disk : DiskInfo) : disk.setPools disk.toPools = disk := rfl
@[simp] theorem DiskInfo.setPools_setPools (disk : DiskInfo) (p q : Pools) :
    (disk.setPools p).setPools q = disk.setPools q := rfl

/-- What every best-effort pod keeps on the disk. -/
def DiskInfo.beMin [Rounding] (disk : DiskInfo) : IOPoolStatus :=
  { IOPoolStatus.zero with
    inBps := disk.beDefaultRead
    outBps := disk.beDefaultWrite
    total := fl (disk.beDefaultRead + disk.beDefaultWrite) }

abbrev Disks : Type := Dict String DiskInfo

structure NodeInfo where
  disksStatus : Disks
  emptyDirDevice : String
  deriving DecidableEq

structure Resource where
  nodeName : String
  info : NodeInfo
  deriving DecidableEq

def Resource.setDisks (ps : Resource) (disks : Disks) : Resource :=
  { ps with info := { ps.info with disksStatus := disks } }

@[simp] theorem Resource.setDisks_nodeName (ps : Resource) (disks : Disks) :
    (ps.setDisks disks).nodeName = ps.nodeName := rfl
@[simp] theorem Resource.setDisks_disksStatus (ps : Resource) (disks : Disks) :
    (ps.setDisks disks).info.disksStatus = disks := rfl
@[simp] theorem Resource.setDisks_setDisks (ps : Resource) (d d' : Disks) :
    (ps.setDisks d).setDisks d' = ps.setDisks d' := rfl

structure DiskRequest where
  ioRequest : IOResourceRequest
  storageRequest : Int
  deriving DecidableEq

structure PVCInfo where
  devID : String
  reqStorage : Int
  reuse : Bool
  deriving DecidableEq

/-- What `AdmitPod` hands to the later scheduling steps. -/
structure RequestInfo where
  resourceRequest : AList fun _ : String => DiskRequest
  pvcToDevice : Dict String PVCInfo

/-- What a call reads and writes besides the cache entry it works on. -/
structure Env where
  ctx : ResourceIOContext
  cms : ConfigMaps
  held : Bool
  deriving DecidableEq

/-! ## Reservation -/

def noDevice (nodeName dev : String) : String := s!"node {nodeName} doesn't contain device {dev} info"

/-- The loop of `AddPod`: disks charged before an error stay charged. -/
def chargeAll [Rounding] (nodeName : String) :
    List (Sigma fun _ : String => DiskRequest) → Disks →
      Outcome (Disks × Except String (List IOResourceRequest))
  | [], disks => .done (disks, .ok [])
  | ⟨dev, ioreq⟩ :: rest, disks =>
    match disks.lookup dev with
    | none => .done (disks, .error (noDevice nodeName dev))
    | some disk => do
      let pools ← disk.toPools.charge ioreq.ioRequest
      let (disks', r) ← chargeAll nodeName rest (disks.insert dev (disk.setPools pools))
      return (disks', r.map (ioreq.ioRequest :: ·))

/-- The API answers one `volumeDeviceMapping` gets. -/
structure MappingAnswers where
  provisioner : Volume → ProvisionerAnswer
  getFail : Option String
  writeFail : Option String

/-- The locked loop of `volumeDeviceMapping`: the entries for the ConfigMap, and the new entries
of the claim-to-device map. -/
def mapVolumes (ps : Resource) (pvcMap : Dict String PVCInfo) (pod : Pod)
    (provisioner : Volume → ProvisionerAnswer) :
    List Volume → Dict String String → Dict String StorageInfo →
      Outcome (Dict String String × Dict String StorageInfo × Except String Unit)
  | [], mapping, claims => .done (mapping, claims, .ok ())
  | vol :: vols, mapping, claims =>
    match vol.claimName with
    | none => mapVolumes ps pvcMap pod provisioner vols mapping claims
    | some pvcName => do
      match ← isIOIProvisioner (provisioner vol) with
      | .ok true =>
        let key := claimKey pvcName pod.ns
        match pvcMap.lookup key with
        | none =>
          return (mapping, claims,
            .error s!"unable to get the reserved disk id for pvc {pvcName}")
        | some dev =>
          if dev.reuse then mapVolumes ps pvcMap pod provisioner vols mapping claims
          else
            match ps.info.disksStatus.lookup dev.devID with
            | none => return (mapping, claims, .error (noDevice ps.nodeName dev.devID))
            | some disk =>
              mapVolumes ps pvcMap pod provisioner vols
                (mapping.insert key (dev.devID ++ ":" ++ disk.mountPath))
                (claims.insert key ⟨dev.devID, dev.reqStorage, ps.nodeName⟩)
      | _ => mapVolumes ps pvcMap pod provisioner vols mapping claims

/-- The ConfigMap update that ends `volumeDeviceMapping`. -/
def writeMapping (cms : ConfigMaps) (nodename : String) (mapping : Dict String String)
    (getFail writeFail : Option String) : ConfigMaps × Except String Unit :=
  match getVolumeDeviceMap cms nodename getFail with
  | .failed err =>
    (cms, .error s!"failed to get ConfigMap volume-device-map: nodename {nodename}, err: {err} ")
  | .notFound =>
    match writeFail with
    | some e => (cms, .error e)
    | none => (cms.insert nodename mapping, .ok ())
  | .found data =>
    match writeFail with
    | some e => (cms, .error e)
    | none => (cms.insert nodename (mapping ∪ data), .ok ())

/-- `volumeDeviceMapping`. The error returns of the loop leave the mutex locked. -/
def volumeDeviceMapping (lm : LockModel) (ps : Resource) (pvcMap : Dict String PVCInfo)
    (pod : Pod) (a : MappingAnswers) (env : Env) : Outcome (Env × Except String Unit) := do
  let held ← lm.lock env.held
  let (mapping, claims, r) ←
    mapVolumes ps pvcMap pod a.provisioner pod.volumes ∅ env.ctx.claimDevMap
  let env := { env with ctx := { env.ctx with claimDevMap := claims }, held := held }
  match r with
  | .error err => return (env, .error err)
  | .ok () =>
    let held ← lm.unlock env.held
    let env := { env with held := held }
    if mapping = ∅ then return (env, .ok ())
    else
      let (cms, r) := writeMapping env.cms ps.nodeName mapping a.getFail a.writeFail
      return ({ env with cms := cms }, r)

/-- `AddPod` for a request of block I/O type (`none` is any other type). -/
def addPod [Rounding] (lm : LockModel) (ps : Resource) (pod : Pod) (rawRequest : Option RequestInfo)
    (a : MappingAnswers) (env : Env) : Outcome (Resource × Env × AddResult) :=
  match rawRequest with
  | none =>
    .done (ps, env, .mismatch "unable to convert state into BlockIO's pod request format")
  | some request => do
    let (disks, r) ← chargeAll ps.nodeName request.resourceRequest.entries ps.info.disksStatus
    let ps := ps.setDisks disks
    match r with
    | .error err => return (ps, env, .failed err)
    | .ok reqs =>
      if request.pvcToDevice = ∅ then return (ps, env, .added reqs)
      else do
        let (env, r) ← volumeDeviceMapping lm ps request.pvcToDevice pod a env
        match r with
        | .error err => return (ps, env, .failed err)
        | .ok () => return (ps, env, .added reqs)

/-! ## Release -/

/-- The loop of `RemovePod` over the reserved requests of the pod. -/
def refundAll [Rounding] (nodeName : String) :
    List IOResourceRequest → Disks → Outcome (Disks × Except String Unit)
  | [], disks => .done (disks, .ok ())
  | v :: vs, disks =>
    if v.ioType ≠ .diskIo then refundAll nodeName vs disks
    else do
      let d ← Outcome.ofOption v.devRequest
      match disks.lookup d.devName with
      | none => return (disks, .error (noDevice nodeName d.devName))
      | some disk =>
        let pools ← disk.toPools.refund v
        refundAll nodeName vs (disks.insert d.devName (disk.setPools pools))

/-- `podHasPVCs`: whether some volume is a claim of the provisioner. -/
def podHasPVCs (provisioner : Volume → ProvisionerAnswer) : List Volume → Outcome Bool
  | [] => .done false
  | vol :: vols =>
    match vol.claimName with
    | none => podHasPVCs provisioner vols
    | some _ => do
      match ← isIOIProvisioner (provisioner vol) with
      | .ok true => return true
      | _ => podHasPVCs provisioner vols

/-- The API answers one `undoVolumeDeviceMapping` gets, by the volume the outer loop is at. -/
structure UndoAnswers where
  provisioner : Volume → ProvisionerAnswer
  getPVC : Volume → Except String PersistentVolumeClaim
  getFail : Volume → Option String
  updateFail : Volume → Option String
  innerProvisioner : Volume → Volume → ProvisionerAnswer

/-- The inner loop of `undoVolumeDeviceMapping`: it drops every claim of the pod, bound or
pending. -/
def dropClaims (ns : String) (provisioner : Volume → ProvisionerAnswer) :
    List Volume → Dict String StorageInfo → Outcome (Dict String StorageInfo)
  | [], claims => .done claims
  | vol :: vols, claims =>
    match vol.claimName with
    | none => dropClaims ns provisioner vols claims
    | some pvc => do
      match ← isIOIProvisioner (provisioner vol) with
      | .ok true => dropClaims ns provisioner vols (claims.erase (claimKey pvc ns))
      | _ => dropClaims ns provisioner vols claims

/-- The outer loop of `undoVolumeDeviceMapping`; it counts the deferred unlocks. -/
def undoLoop (lm : LockModel) (pod : Pod) (nodename : String) (a : UndoAnswers) :
    List Volume → Nat → Env → Outcome (Nat × Env × Except String Unit)
  | [], n, env => .done (n, env, .ok ())
  | vol :: vols, n, env =>
    match vol.claimName with
    | none => undoLoop lm pod nodename a vols n env
    | some _ => do
      match ← isIOIProvisioner (a.provisioner vol) with
      | .ok true =>
        match a.getPVC vol with
        | .error _ => undoLoop lm pod nodename a vols n env
        | .ok obj =>
          if obj.phase ≠ .pending then undoLoop lm pod nodename a vols n env
          else
            match removePVCsFromVolDiskCm env.cms obj nodename (a.getFail vol)
              (a.updateFail vol) with
            | .error err => return (n, env, .error err)
            | .ok cms =>
              let held ← lm.lock env.held
              let claims ← dropClaims pod.ns (a.innerProvisioner vol) pod.volumes
                env.ctx.claimDevMap
              undoLoop lm pod nodename a vols (n + 1)
                { ctx := { env.ctx with claimDevMap := claims }, cms := cms, held := held }
      | _ => undoLoop lm pod nodename a vols n env

def unlockAll (lm : LockModel) : Nat → Bool → Outcome Bool
  | 0, held => .done held
  | n + 1, held => lm.unlock held >>= unlockAll lm n

def undoVolumeDeviceMapping (lm : LockModel) (pod : Pod) (nodename : String) (a : UndoAnswers)
    (env : Env) : Outcome (Env × Except String Unit) := do
  let (n, env, r) ← undoLoop lm pod nodename a pod.volumes 0 env
  let held ← unlockAll lm n env.held
  return ({ env with held := held }, r)

/-- The API client of a `RemovePod`: the answers to `podHasPVCs` and to the undo. -/
structure RemoveAnswers where
  provisioner : Volume → ProvisionerAnswer
  undo : UndoAnswers

/-- `RemovePod` between its `Lock` and the deferred `Unlock`; `client = none` is the nil client
of the delete event. -/
def removeLocked [Rounding] (lm : LockModel) (ps : Resource) (pod : Pod) (client : Option RemoveAnswers)
    (env : Env) : Outcome (Resource × Env × Except String Unit) :=
  match env.ctx.getReservedPods ps.nodeName with
  | .error err => .done (ps, env, .error err)
  | .ok podreq =>
    match podreq.podList.lookup pod.uid with
    | none =>
      .done (ps, env, .error s!"pod doesn't exist in reserved pod cache: {pod.name}")
    | some pl => do
      let (disks, r) ← refundAll ps.nodeName pl.request ps.info.disksStatus
      let ps := ps.setDisks disks
      match r, client with
      | .error err, _ => return (ps, env, .error err)
      | .ok (), none => return (ps, env, .ok ())
      | .ok (), some a =>
        if ← podHasPVCs a.provisioner pod.volumes then
          -- an error of the undo is only logged
          let (env, _) ← undoVolumeDeviceMapping lm pod ps.nodeName a.undo env
          return (ps, env, .ok ())
        else return (ps, env, .ok ())

def removePod [Rounding] (lm : LockModel) (ps : Resource) (pod : Pod) (client : Option RemoveAnswers)
    (env : Env) : Outcome (Resource × Env × Except String Unit) := do
  let held ← lm.lock env.held
  let (ps, env, r) ← removeLocked lm ps pod client { env with held := held }
  let held ← lm.unlock env.held
  return (ps, { env with held := held }, r)

/-! ## The handler's cache -/

/-- `CanAdmitPod` on the disks of a node: the loop over the requested disks. -/
def admitAll [Rounding] (nodeName : String) (disks : Disks) :
    List (Sigma fun _ : String => DiskRequest) → Outcome (Except String Unit)
  | [] => .done (.ok ())
  | ⟨dev, req⟩ :: rest =>
    match disks.lookup dev with
    | none =>
      .done (.error s!"device {dev} on Node {nodeName} is not registed: BlockIOHandle")
    | some disk =>
      if req.storageRequest > truncInt (fl (disk.capacity - disk.requestedDiskSpace : Int)) then
        .done (.error s!"insufficient BlockIOHandle storage space on node {nodeName}")
      else do
        match ← admitDevice "BlockIOHandle" nodeName disk.toPools disk.beMin req.ioRequest with
        | .error err => return .error err
        | .ok () => admitAll nodeName disks rest

def canAdmitPod [Rounding] (cache : Dict String Resource) (nodeName : String)
    (rawRequest : Option RequestInfo) : Outcome (Except String Unit) :=
  match rawRequest with
  | none =>
    .done (.error "unable to convert state into BlockIOHandle's pod request format")
  | some requests =>
    match cache.lookup nodeName with
    | none => .done (.error s!"node {nodeName} not registered in cache")
    | some r => admitAll nodeName r.info.disksStatus requests.resourceRequest.entries

/-- `InitNodeStatus` on the disks of a node, given its reserved pods. -/
def initDisks (rc : ResourceConfigSpec) (pods : Dict String PodRequest) (disks : Disks) : Disks :=
  Dict.mapVals (fun dev disk =>
    match rc.devices.lookup dev with
    | some info => disk.setPools (initDevice .diskIo rc.bePool dev info pods disk.toPools)
    | none => disk) disks

/-- `InitNodeStatus`. Without a reserved-pod list the first configured and registered disk
dereferences nil. -/
def initNodeStatus (ps : Resource) (ctx : ResourceIOContext) (rc : ResourceConfigSpec) :
    Outcome Resource :=
  match ctx.getReservedPods ps.nodeName with
  | .ok pl =>
    .done (ps.setDisks (initDisks rc pl.podList ps.info.disksStatus))
  | .error _ =>
    if Disjoint rc.devices.keys ps.info.disksStatus.keys then .done ps else .panic

/-- `AddCacheNodeInfo`: the disks of a fresh cache entry. `usage` is the space the bound claims
take, `size` the parsed disk size, `emptyDirDevice` the default device the loop sees last. -/
def addCacheNodeInfo [QuantityParser] (nodeName : String) (rc : ResourceConfigSpec)
    (usage : Dict String Int)
    (size : String → Int) (emptyDirDevice : String) : Resource :=
  { nodeName := nodeName
    info := {
      emptyDirDevice := emptyDirDevice
      disksStatus := Dict.mapVals (fun dev info => {
        ga := .zero
        be := beShare rc.bePool info
        diskName := info.name
        readRatio := parseMappingRatio info.readRatio
        writeRatio := parseMappingRatio info.writeRatio
        beDefaultRead := info.defaultIn
        beDefaultWrite := info.defaultOut
        capacity := size info.diskSize
        requestedDiskSpace := (usage.lookup dev).getD 0
        mountPath := info.mountPath }) rc.devices } }

/-- `UpdateCacheNodeStatus`: only the generation of the current list may overwrite the pools. -/
def updateCacheNodeStatus (ps : Resource) (ctx : ResourceIOContext) (st : NodeIOStatusStatus) :
    Resource :=
  match st.allocatableBandwidth.lookup .blockIo, ctx.getReservedPods ps.nodeName with
  | some bw, .ok v =>
    if bw ≠ ∅ ∧ st.observedGeneration = v.generation then
      ps.setDisks (Dict.mapVals (fun dev disk =>
        disk.setPools (applyStatus bw dev disk.toPools)) ps.info.disksStatus)
    else ps
  | _, _ => ps

/-- `UpdatePVC` of the handler; its callers hold the mutex or not, it does not lock. -/
def updatePVC (cache : Dict String Resource) (pvc : PersistentVolumeClaim)
    (nodename devId : String) (storage : Int) (add : Bool) (getFail updateFail : Option String)
    (env : Env) : Dict String Resource × Env × Except String Unit :=
  match cache.lookup nodename with
  | none => (cache, env, .error s!"node {nodename} not registered in cache")
  | some r =>
    match r.info.disksStatus.lookup devId with
    | none => (cache, env, .error (noDevice nodename devId))
    | some disk =>
      let env :=
        match add, pvc.selectedNode with
        | false, some node =>
          { env with
            cms := ((removePVCsFromVolDiskCm env.cms pvc node getFail updateFail).toOption).getD
              env.cms
            ctx := { env.ctx with
              claimDevMap := env.ctx.claimDevMap.erase (claimKey pvc.name pvc.ns) } }
        | _, _ => env
      let storage := if add then storage else -1 * storage
      let disk := { disk with requestedDiskSpace := disk.requestedDiskSpace + storage }
      (cache.insert nodename (r.setDisks (r.info.disksStatus.insert devId disk)), env, .ok ())

/-! ## What the loops do -/

def takeAll (f : String → Demand) (disks : Disks) : Disks :=
  Dict.mapVals (fun dev disk => disk.setPools (disk.toPools.take (f dev))) disks

theorem lookup_takeAll (f : String → Demand) (disks : Disks) (dev : String) :
    (takeAll f disks).lookup dev =
      (disks.lookup dev).map fun disk => disk.setPools (disk.toPools.take (f dev)) :=
  Dict.lookup_mapVals _ disks dev

variable {dev : String} {disks : Disks} {es : List (Sigma fun _ : String => DiskRequest)}
  {env env' : Env} {lm : LockModel} {pod : Pod} {ps ps' : Resource} {r : Except String Unit}

theorem mem_takeAll {f : String → Demand} : dev ∈ takeAll f disks ↔ dev ∈ disks := by
  rw [← lookup_isSome, ← lookup_isSome, lookup_takeAll, Option.isSome_map]

@[simp] theorem takeAll_zero (disks : Disks) : takeAll (fun _ => 0) disks = disks := by
  apply ext_lookup
  intro dev
  rw [lookup_takeAll]
  cases disks.lookup dev <;> simp

theorem takeAll_takeAll (f g : String → Demand) (disks : Disks) :
    takeAll g (takeAll f disks) = takeAll (fun dev => f dev + g dev) disks := by
  apply ext_lookup
  intro dev
  simp only [lookup_takeAll, Option.map_map]
  cases disks.lookup dev <;> simp [Pools.take_take]

theorem insert_take {disk : DiskInfo} (h : disks.lookup dev = some disk) (d : Demand) :
    disks.insert dev (disk.setPools (disk.toPools.take d)) =
      takeAll (fun x => if x = dev then d else 0) disks := by
  apply ext_lookup
  intro x
  rw [lookup_takeAll, Dict.lookup_insert_ite]
  by_cases hx : x = dev
  · subst hx; simp [h]
  · simp only [hx, if_false, Pools.take_zero]
    cases disks.lookup x <;> rfl

def entriesDemand (es : List (Sigma fun _ : String => DiskRequest)) (dev : String) : Demand :=
  (es.map fun e => if dev = e.1 then demand e.2.ioRequest else 0).sum

@[simp] theorem entriesDemand_cons (dev x : String) (r : DiskRequest)
    (es : List (Sigma fun _ : String => DiskRequest)) :
    entriesDemand (⟨dev, r⟩ :: es) x =
      (if x = dev then demand r.ioRequest else 0) + entriesDemand es x := by
  simp [entriesDemand]

theorem entriesDemand_of_not_mem (h : ∀ e ∈ es, e.1 ≠ dev) : entriesDemand es dev = 0 := by
  apply sum_eq_zero
  intro d hd
  obtain ⟨e, he, rfl⟩ := mem_map.mp hd
  rw [if_neg fun heq => h e he heq.symm]

theorem entriesDemand_of_mem {r : DiskRequest} (hnodup : es.NodupKeys) (h : ⟨dev, r⟩ ∈ es) :
    entriesDemand es dev = demand r.ioRequest := by
  induction es with
  | nil => cases h
  | cons e es ih =>
    obtain ⟨x, rx⟩ := e
    rw [nodupKeys_cons] at hnodup
    rw [entriesDemand_cons]
    rcases mem_cons.mp h with heq | h
    · cases heq
      rw [if_pos rfl, entriesDemand_of_not_mem, add_zero]
      rintro e he rfl
      have hkey := mem_keys_of_mem he
      exact hnodup.1 hkey
    · have hne : dev ≠ x := by
        intro heq
        have hkey := mem_keys_of_mem h
        exact hnodup.1 (heq ▸ hkey)
      rw [if_neg hne, zero_add, ih hnodup.2 h]

/-- The requests before the first one for an unregistered disk. -/
def registered (disks : Disks) (es : List (Sigma fun _ : String => DiskRequest)) :
    List (Sigma fun _ : String => DiskRequest) :=
  es.takeWhile fun e => decide (e.1 ∈ disks)

/-- How the loop of `AddPod` ends: at the first unregistered disk, or with all requests. -/
def chargeResult (nodeName : String) (disks : Disks)
    (es : List (Sigma fun _ : String => DiskRequest)) : Except String (List IOResourceRequest) :=
  match es.find? fun e => decide (e.1 ∉ disks) with
  | some e => .error (noDevice nodeName e.1)
  | none => .ok (es.map fun e => e.2.ioRequest)

theorem registered_takeAll (f : String → Demand) (disks : Disks)
    (es : List (Sigma fun _ : String => DiskRequest)) :
    registered (takeAll f disks) es = registered disks es := by
  simp [registered, mem_takeAll]

theorem chargeResult_takeAll (nodeName : String) (f : String → Demand) (disks : Disks)
    (es : List (Sigma fun _ : String => DiskRequest)) :
    chargeResult nodeName (takeAll f disks) es = chargeResult nodeName disks es := by
  simp [chargeResult, mem_takeAll]

variable {nodeName nodename : String} {reqs : List IOResourceRequest} {c : ResourceIOContext}
  {a : MappingAnswers} {client : Option RemoveAnswers}

/-- The loop charges exactly the requests before the first unregistered disk. -/
theorem chargeAll_done {disks' : Disks} {r : Except String (List IOResourceRequest)}
    (h : chargeAll nodeName es disks = .done (disks', r)) :
    disks' = takeAll (entriesDemand (registered disks es)) disks ∧
      r = chargeResult nodeName disks es := by
  induction es generalizing disks r with
  | nil =>
    simp only [chargeAll, done.injEq, Prod.mk.injEq] at h
    obtain ⟨rfl, rfl⟩ := h
    exact ⟨(takeAll_zero disks).symm, rfl⟩
  | cons e es ih =>
    obtain ⟨dev, ioreq⟩ := e
    cases hl : disks.lookup dev with
    | none =>
      have hmem : dev ∉ disks := lookup_eq_none.mp hl
      simp only [chargeAll, hl, done.injEq, Prod.mk.injEq] at h
      obtain ⟨rfl, rfl⟩ := h
      have hnil : registered disks (⟨dev, ioreq⟩ :: es) = [] := by simp [registered, hmem]
      refine ⟨?_, by simp [chargeResult, hmem]⟩
      rw [hnil]
      exact (takeAll_zero disks).symm
    | some disk =>
      have hmem : dev ∈ disks := mem_of_lookup_eq_some hl
      simp only [chargeAll, hl, bind_eq_done] at h
      obtain ⟨pools, hpools, ⟨disks1, r1⟩, hrest, h⟩ := h
      cases h
      rw [charge_done hpools, insert_take hl] at hrest
      obtain ⟨hd, hr⟩ := ih hrest
      rw [registered_takeAll, takeAll_takeAll] at hd
      rw [chargeResult_takeAll] at hr
      refine ⟨?_, ?_⟩
      · have hcons : registered disks (⟨dev, ioreq⟩ :: es) = ⟨dev, ioreq⟩ :: registered disks es := by
          simp [registered, hmem]
        rw [hd, hcons]
        congr 1
      · rw [hr]
        simp only [chargeResult, find?_cons, hmem, not_true_eq_false, decide_false]
        cases es.find? fun e => decide (e.1 ∉ disks) <;> rfl

theorem registered_eq_self (h : ∀ e ∈ es, e.1 ∈ disks) : registered disks es = es := by
  rw [registered, takeWhile_eq_self_iff]
  simpa using h

theorem chargeResult_ok (h : chargeResult nodeName disks es = .ok reqs) :
    reqs = es.map (fun e => e.2.ioRequest) ∧ ∀ e ∈ es, e.1 ∈ disks := by
  unfold chargeResult at h
  split at h
  · cases h
  rename_i hf
  cases h
  simpa using hf

/-- A pod whose disks are all registered and counted gives back exactly its demands. -/
theorem refundAll_of_wellFormed (nodeName : String) {rs : List IOResourceRequest}
    (hwf : Sched.WellFormed .diskIo rs)
    (hreg : ∀ r ∈ rs, r.ioType = .diskIo → ∀ dev, devName r = some dev → dev ∈ disks)
    (hnum : ∀ dev disk, disks.lookup dev = some disk → (podDemand .diskIo dev rs).2.2 ≤ disk.be.num) :
    refundAll nodeName rs disks =
      .done (takeAll (fun dev => -podDemand .diskIo dev rs) disks, .ok ()) := by
  induction rs generalizing disks with
  | nil => simp [refundAll]
  | cons v vs ih =>
    by_cases ht : v.ioType = .diskIo
    · have hsch := hwf.schedulable v mem_cons_self ht
      obtain ⟨d, hd⟩ : ∃ d, v.devRequest = some d := by
        rcases hsch.cases with ⟨d, q, -, hd, -⟩ | ⟨d, -, hd⟩ <;> exact ⟨d, hd⟩
      have hname : devName v = some d.devName := by simp [devName, hd]
      have hother : ∀ x, x ≠ d.devName → devName v ≠ some x := by
        intro x hx hc
        rw [hname, Option.some.injEq] at hc
        exact hx hc.symm
      have hmem := hreg v mem_cons_self ht d.devName hname
      obtain ⟨disk, hl⟩ := mem_iff.mp hmem
      have hrest := hwf.podDemand_tail ht hname
      have hself : podDemand .diskIo d.devName (v :: vs) = demand v := by
        rw [podDemand_cons, hrest, demandOn_self ht hname, add_zero]
      have hpools := refund_of_schedulable hsch (p := disk.toPools) (by
        have := hnum d.devName disk hl
        rwa [hself] at this)
      have hstep : refundAll nodeName (v :: vs) disks = refundAll nodeName vs
          (takeAll (fun x => if x = d.devName then -demand v else 0) disks) := by
        rw [← insert_take hl]
        simp [refundAll, ht, hd, hl, hpools]
      rw [hstep, ih hwf.tail, takeAll_takeAll]
      · congr 3
        funext x
        by_cases hx : x = d.devName
        · subst hx; rw [if_pos rfl, hrest, hself]; simp
        · rw [podDemand_cons, demandOn_of_ne (hother x hx), if_neg hx]; simp
      · intro r hr hrt dev hdev
        exact mem_takeAll.mpr (hreg r (mem_cons_of_mem v hr) hrt dev hdev)
      intro x disk' hx'
      rw [lookup_takeAll] at hx'
      obtain ⟨disk0, hx0, rfl⟩ := Option.map_eq_some_iff.mp hx'
      by_cases hx : x = d.devName
      · subst hx
        have := hnum _ _ hx0
        rw [hself] at this
        rw [hrest]
        simpa [Pools.take] using this
      · have := hnum x disk0 hx0
        rw [podDemand_cons, demandOn_of_ne (hother x hx)] at this
        simpa [Pools.take, hx] using this
    · have hzero : ∀ dev, podDemand .diskIo dev (v :: vs) = podDemand .diskIo dev vs := by
        intro dev
        simp [podDemand_cons, demandOn, ht]
      simp only [hzero] at hnum ⊢
      rw [refundAll, if_pos ht]
      exact ih hwf.tail (fun r hr => hreg r (mem_cons_of_mem v hr)) hnum

/-! ## When the loops get through -/

/-- The loop of `AddPod` returns all requests exactly when every disk is registered and every
guaranteed request carries its bandwidth; otherwise it fails or panics. -/
theorem chargeAll_cases (nodeName : String) (es : List (Sigma fun _ : String => DiskRequest))
    (disks : Disks) :
    (∃ disks' reqs, chargeAll nodeName es disks = .done (disks', .ok reqs)) ∧
        (∀ e ∈ es, e.1 ∈ disks ∧ Chargeable e.2.ioRequest) ∨
      ((∃ disks' err, chargeAll nodeName es disks = .done (disks', .error err)) ∨
        chargeAll nodeName es disks = .panic) ∧
        ¬ ∀ e ∈ es, e.1 ∈ disks ∧ Chargeable e.2.ioRequest := by
  induction es generalizing disks with
  | nil => exact .inl ⟨⟨disks, [], rfl⟩, by simp⟩
  | cons e es ih =>
    obtain ⟨dev, ioreq⟩ := e
    cases hl : disks.lookup dev with
    | none =>
      refine .inr ⟨.inl ⟨disks, noDevice nodeName dev, by simp only [chargeAll, hl]⟩, ?_⟩
      intro h
      exact lookup_eq_none.mp hl (h _ mem_cons_self).1
    | some disk =>
      have hmem := mem_of_lookup_eq_some hl
      rcases charge_cases disk.toPools ioreq.ioRequest with ⟨⟨p, hp⟩, hc⟩ | ⟨hp, hc⟩
      · have hkeys : ∀ x, x ∈ disks.insert dev (disk.setPools p) ↔ x ∈ disks := by
          intro x
          rw [mem_insert]
          exact ⟨fun h => h.elim (fun h => h ▸ hmem) id, .inr⟩
        rcases ih (disks.insert dev (disk.setPools p)) with
          ⟨⟨d', reqs, h⟩, hall⟩ | ⟨h, hall⟩
        · refine .inl ⟨⟨d', ioreq.ioRequest :: reqs, ?_⟩, ?_⟩
          · simp [chargeAll, hl, hp, h, Except.map]
          · simp only [hkeys] at hall
            simp only [forall_mem_cons]
            exact ⟨⟨hmem, hc⟩, hall⟩
        · refine .inr ⟨?_, ?_⟩
          · rcases h with ⟨d', err, h⟩ | h
            · exact .inl ⟨d', err, by simp [chargeAll, hl, hp, h, Except.map]⟩
            · exact .inr (by simp [chargeAll, hl, hp, h])
          · simp only [hkeys] at hall
            intro h'
            exact hall fun e he => h' e (mem_cons_of_mem _ he)
      · refine .inr ⟨.inr (by simp [chargeAll, hl, hp]), ?_⟩
        intro h
        exact hc (h _ mem_cons_self).2

/-- The request can be refunded: it names a registered disk and carries what is given back. -/
def CanRefund (disks : Disks) (v : IOResourceRequest) : Prop :=
  v.ioType = .diskIo →
    (∃ d, v.devRequest = some d ∧ d.devName ∈ disks) ∧ Chargeable v

theorem refundAll_cases (nodeName : String) (rs : List IOResourceRequest) (disks : Disks) :
    (∃ disks', refundAll nodeName rs disks = .done (disks', .ok ())) ∧
        (∀ v ∈ rs, CanRefund disks v) ∨
      ((∃ disks' err, refundAll nodeName rs disks = .done (disks', .error err)) ∨
        refundAll nodeName rs disks = .panic) ∧ ¬ ∀ v ∈ rs, CanRefund disks v := by
  induction rs generalizing disks with
  | nil => exact .inl ⟨⟨disks, rfl⟩, by simp⟩
  | cons v vs ih =>
    by_cases ht : v.ioType = .diskIo
    · cases hd : v.devRequest with
      | none =>
        refine .inr ⟨.inr (by simp [refundAll, ht, hd]), ?_⟩
        intro h
        obtain ⟨⟨d, hd', -⟩, -⟩ := h v mem_cons_self ht
        simp [hd] at hd'
      | some d =>
        cases hl : disks.lookup d.devName with
        | none =>
          refine .inr ⟨.inl ⟨disks, noDevice nodeName d.devName, ?_⟩, ?_⟩
          · simp [refundAll, ht, hd, hl]
          intro h
          obtain ⟨⟨d', hd', hm⟩, -⟩ := h v mem_cons_self ht
          obtain rfl := Option.mem_unique hd hd'
          exact lookup_eq_none.mp hl hm
        | some disk =>
          have hmem := mem_of_lookup_eq_some hl
          rcases refund_cases disk.toPools v with ⟨⟨p, hp⟩, hc⟩ | ⟨hp, hc⟩
          · have hkeys : ∀ x, x ∈ disks.insert d.devName (disk.setPools p) ↔ x ∈ disks := by
              intro x
              rw [mem_insert]
              exact ⟨fun h => h.elim (fun h => h ▸ hmem) id, .inr⟩
            have hsame : ∀ u, CanRefund (disks.insert d.devName (disk.setPools p)) u ↔
                CanRefund disks u := by
              intro u
              simp only [CanRefund, hkeys]
            have hstep : refundAll nodeName (v :: vs) disks =
                refundAll nodeName vs (disks.insert d.devName (disk.setPools p)) := by
              simp [refundAll, ht, hd, hl, hp]
            have hv : CanRefund disks v := fun _ => ⟨⟨d, hd, hmem⟩, hc⟩
            have := ih (disks.insert d.devName (disk.setPools p))
            simp only [hsame] at this
            rw [hstep]
            simp only [forall_mem_cons, hv, true_and]
            exact this
          · refine .inr ⟨.inr (by simp [refundAll, ht, hd, hl, hp]), ?_⟩
            intro h
            exact hc (h v mem_cons_self ht).2
    · have hv : CanRefund disks v := fun h => absurd h ht
      have hstep : refundAll nodeName (v :: vs) disks = refundAll nodeName vs disks := by
        rw [refundAll, if_pos ht]
      rw [hstep]
      simp only [forall_mem_cons, hv, true_and]
      exact ih disks

/-! ## Requests as `AdmitPod` builds them -/

def RequestInfo.WellFormed (r : RequestInfo) : Prop :=
  ∀ e ∈ r.resourceRequest.entries, e.2.ioRequest.ioType = .diskIo ∧
    devName e.2.ioRequest = some e.1 ∧ Schedulable e.2.ioRequest

instance (r : RequestInfo) : Decidable r.WellFormed :=
  inferInstanceAs (Decidable (∀ e ∈ r.resourceRequest.entries, _))

theorem RequestInfo.WellFormed.requests {r : RequestInfo} (h : r.WellFormed) :
    Sched.WellFormed .diskIo (r.resourceRequest.entries.map fun e => e.2.ioRequest) := by
  constructor
  · intro x hx _
    obtain ⟨e, he, rfl⟩ := mem_map.mp hx
    exact (h e he).2.2
  · -- the keys of the map differ, and the requests name the keys
    rw [pairwise_map]
    have hkeys := pairwise_map.mp r.resourceRequest.nodupKeys
    refine hkeys.imp_of_mem ?_
    intro a b ha hb hab _ _ heq
    rw [(h a ha).2.1, (h b hb).2.1, Option.some.injEq] at heq
    exact hab heq

theorem RequestInfo.WellFormed.entriesDemand_eq {r : RequestInfo} (h : r.WellFormed)
    (dev : String) : entriesDemand r.resourceRequest.entries dev =
      podDemand .diskIo dev (r.resourceRequest.entries.map fun e => e.2.ioRequest) := by
  unfold entriesDemand podDemand
  rw [map_map]
  congr 1
  apply map_congr_left
  intro e he
  obtain ⟨ht, hd, _⟩ := h e he
  simp [demandOn, ht, hd, eq_comm]

/-! ## What a whole call does -/

/-- The context apart from the claim-to-device map is unchanged. -/
def SameButClaims (c c' : ResourceIOContext) : Prop :=
  c' = { c with claimDevMap := c'.claimDevMap }

theorem SameButClaims.trans {a b : ResourceIOContext} (h1 : SameButClaims a b)
    (h2 : SameButClaims b c) : SameButClaims a c := by
  unfold SameButClaims at *
  rw [h2, h1]

theorem SameButClaims.reservedpod {c' : ResourceIOContext} (h : SameButClaims c c') :
    c'.reservedpod = c.reservedpod := by
  rw [h]

theorem volumeDeviceMapping_frame {pvcMap : Dict String PVCInfo}
    (h : volumeDeviceMapping lm ps pvcMap pod a env = .done (env', r)) :
    SameButClaims env.ctx env'.ctx := by
  unfold volumeDeviceMapping at h
  simp only [bind_eq_done] at h
  obtain ⟨held, -, ⟨mapping, claims, r1⟩, -, h⟩ := h
  cases r1 with
  | error err => cases h; rfl
  | ok u =>
    simp only [bind_eq_done] at h
    obtain ⟨held', -, h⟩ := h
    split at h <;> cases h <;> rfl

theorem addPod_added {request : RequestInfo}
    (h : addPod lm ps pod (some request) a env = .done (ps', env', .added reqs)) :
    reqs = request.resourceRequest.entries.map (fun e => e.2.ioRequest) ∧
      (∀ e ∈ request.resourceRequest.entries, e.1 ∈ ps.info.disksStatus) ∧
      ps' = ps.setDisks
        (takeAll (entriesDemand request.resourceRequest.entries) ps.info.disksStatus) ∧
      SameButClaims env.ctx env'.ctx := by
  simp only [addPod, bind_eq_done] at h
  obtain ⟨⟨disks, r⟩, hcharge, h⟩ := h
  obtain ⟨hd, hr⟩ := chargeAll_done hcharge
  cases r with
  | error err => cases h
  | ok reqs' =>
    obtain ⟨hreqs, hmem⟩ := chargeResult_ok hr.symm
    rw [registered_eq_self hmem] at hd
    simp only at h
    split at h
    · cases h
      exact ⟨hreqs, hmem, by rw [← hd], rfl⟩
    simp only [bind_eq_done] at h
    obtain ⟨⟨env1, r1⟩, hmap, h⟩ := h
    cases r1 with
    | error err => cases h
    | ok u =>
      cases h
      exact ⟨hreqs, hmem, by rw [← hd], volumeDeviceMapping_frame hmap⟩

theorem undoLoop_frame {a : UndoAnswers} {vols : List Volume} {n n' : Nat}
    (h : undoLoop lm pod nodename a vols n env = .done (n', env', r)) :
    SameButClaims env.ctx env'.ctx := by
  induction vols generalizing n env with
  | nil => cases h; rfl
  | cons vol vols ih =>
    unfold undoLoop at h
    split at h
    · exact ih h
    rw [bind_eq_done] at h
    obtain ⟨b, -, h⟩ := h
    split at h
    · split at h
      · exact ih h
      split at h
      · exact ih h
      split at h
      · cases h; rfl
      simp only [bind_eq_done] at h
      obtain ⟨held, -, claims, -, h⟩ := h
      have hc : SameButClaims env.ctx { env.ctx with claimDevMap := claims } := rfl
      have hrest := ih h
      exact hc.trans hrest
    · exact ih h

theorem undoVolumeDeviceMapping_frame {a : UndoAnswers}
    (h : undoVolumeDeviceMapping lm pod nodename a env = .done (env', r)) :
    SameButClaims env.ctx env'.ctx := by
  simp only [undoVolumeDeviceMapping, bind_eq_done] at h
  obtain ⟨⟨n, env1, r1⟩, hloop, held, -, h⟩ := h
  have hframe := undoLoop_frame hloop
  cases h
  exact hframe

/-- `RemovePod` fails for a pod that is not in the list, or refunds the requests of its entry. -/
theorem removePod_cases (h : removePod lm ps pod client env = .done (ps', env', r)) :
    SameButClaims env.ctx env'.ctx ∧
      ((∃ err, r = .error err) ∧ ps' = ps ∧
          (∀ l, env.ctx.reservedpod.lookup ps.nodeName = some l → pod.uid ∉ l.podList) ∨
        ∃ l e disks, env.ctx.reservedpod.lookup ps.nodeName = some l ∧
          l.podList.lookup pod.uid = some e ∧
          refundAll ps.nodeName e.request ps.info.disksStatus = .done (disks, r) ∧
          ps' = ps.setDisks disks) := by
  simp only [removePod, bind_eq_done] at h
  obtain ⟨held, -, ⟨ps1, env1, r1⟩, hbody, held', -, h⟩ := h
  cases h
  simp only [removeLocked] at hbody
  cases hl : env.ctx.getReservedPods ps.nodeName with
  | error err =>
    simp only [hl] at hbody
    cases hbody
    refine ⟨rfl, .inl ⟨⟨err, rfl⟩, rfl, fun l hl' => ?_⟩⟩
    rw [ResourceIOContext.getReservedPods_ok.mpr hl'] at hl
    cases hl
  | ok l =>
    have hlist := ResourceIOContext.getReservedPods_ok.mp hl
    simp only [hl] at hbody
    cases he : l.podList.lookup pod.uid with
    | none =>
      simp only [he] at hbody
      cases hbody
      refine ⟨rfl, .inl ⟨⟨_, rfl⟩, rfl, fun l' hl' => ?_⟩⟩
      rw [hlist, Option.some.injEq] at hl'
      exact hl' ▸ lookup_eq_none.mp he
    | some e =>
      simp only [he, bind_eq_done] at hbody
      obtain ⟨⟨disks, r⟩, hrefund, hbody⟩ := hbody
      cases r with
      | error err => cases hbody; exact ⟨rfl, .inr ⟨l, e, disks, hlist, he, hrefund, rfl⟩⟩
      | ok u =>
        cases client with
        | none => cases hbody; exact ⟨rfl, .inr ⟨l, e, disks, hlist, he, hrefund, rfl⟩⟩
        | some a =>
          simp only [bind_eq_done] at hbody
          obtain ⟨b, -, hbody⟩ := hbody
          cases b with
          | false => cases hbody; exact ⟨rfl, .inr ⟨l, e, disks, hlist, he, hrefund, rfl⟩⟩
          | true =>
            simp only [if_true, bind_eq_done] at hbody
            obtain ⟨⟨env2, r2⟩, hundo, hbody⟩ := hbody
            have hframe := undoVolumeDeviceMapping_frame hundo
            cases hbody
            exact ⟨hframe, .inr ⟨l, e, disks, hlist, he, hrefund, rfl⟩⟩

/-- A successful `RemovePod` found the pod in the list and refunded its requests. -/
theorem removePod_ok (h : removePod lm ps pod client env = .done (ps', env', .ok ())) :
    ∃ l e disks, env.ctx.reservedpod.lookup ps.nodeName = some l ∧
      l.podList.lookup pod.uid = some e ∧
      refundAll ps.nodeName e.request ps.info.disksStatus = .done (disks, .ok ()) ∧
      ps' = ps.setDisks disks ∧
      SameButClaims env.ctx env'.ctx := by
  obtain ⟨hframe, ⟨⟨err, herr⟩, -⟩ | ⟨l, e, disks, hl, he, hrefund, hps⟩⟩ := removePod_cases h
  · cases herr
  · exact ⟨l, e, disks, hl, he, hrefund, hps, hframe⟩

section Reserved

variable {l : PodList} {e : PodRequest}
  (hl : env.ctx.reservedpod.lookup ps.nodeName = some l) (he : l.podList.lookup pod.uid = some e)
  (h : removePod lm ps pod client env = .done (ps', env', r))
include hl he h

theorem removePod_refunds :
    ∃ disks, refundAll ps.nodeName e.request ps.info.disksStatus = .done (disks, r) ∧
      ps' = ps.setDisks disks := by
  obtain ⟨-, ⟨-, -, habs⟩ | ⟨l', e', disks, hl', he', hrefund, hps⟩⟩ := removePod_cases h
  · exact absurd (mem_of_lookup_eq_some he) (habs l hl)
  obtain rfl := Option.some.inj (hl'.symm.trans hl)
  obtain rfl := Option.some.inj (he'.symm.trans he)
  exact ⟨disks, hrefund, hps⟩

theorem removePod_done (hok : ∀ v ∈ e.request, CanRefund ps.info.disksStatus v) : r = .ok () := by
  obtain ⟨disks, hrefund, -⟩ := removePod_refunds hl he h
  rcases refundAll_cases ps.nodeName e.request ps.info.disksStatus with
    ⟨⟨disks', hr⟩, -⟩ | ⟨-, hnot⟩
  · rw [hr] at hrefund
    cases hrefund
    rfl
  · exact absurd hok hnot

end Reserved

end IOIsolation.Sched.BlockIo
