import IOIsolation.Sched.Plugin

/-!
# Sched.EventHandler

The informer callbacks of the scheduler: deletion of a pod, the events of volume claims, updates
of the `NodeIOStatus` resource and of the admin ConfigMap.
-/

namespace IOIsolation.Sched

open Lib

/-! ## Pods -/

/-- What the informer hands to a delete handler: the last state it saw, or a tombstone when it
missed the deletion. -/
inductive DeleteNotification where
  | pod (p : Pod)
  | deletedFinalStateUnknown (key : String) (obj : Pod)
  deriving DecidableEq

def podFilter (ctx : ResourceIOContext) : DeleteNotification → Bool
  | .deletedFinalStateUnknown _ _ => false
  | .pod p => !ctx.inNamespaceWhiteList p.ns && p.nodeName != ""

/-- `DeletePod`: a pod without the annotation was not scheduled by the plugin. -/
def deletePod (lm : LockModel) (handles : List HandleKind) (obj : DeleteNotification)
    (classOrder : List String) (s : SchedState) : Outcome SchedState :=
  match obj with
  | .deletedFinalStateUnknown _ _ => .done s
  | .pod p =>
    if allocatedIOAnno ∉ p.annotations then .done s
    else do
      -- the nil client keeps the claims of the pod
      let s ← removeLoop lm p p.nodeName none classOrder handles s
      return { s with env := { s.env with ctx := (s.env.ctx.removePod p p.nodeName).1 } }

def onDeletePod (lm : LockModel) (handles : List HandleKind) (obj : DeleteNotification)
    (classOrder : List String) (s : SchedState) : Outcome SchedState :=
  if podFilter s.env.ctx obj then deletePod lm handles obj classOrder s else .done s

/-! ## Volume claims -/

structure ClaimAnswers where
  getFail : Option String
  removeGetFail : Option String
  removeUpdateFail : Option String

/-- The loop over the handlers' `UpdatePVC`; only the block I/O handler does anything. -/
def updatePVCAll (handles : List HandleKind) (pvc : PersistentVolumeClaim)
    (node devId : String) (storage : Int) (add : Bool) (a : ClaimAnswers) (s : SchedState) :
    SchedState :=
  if .blockIo ∈ handles then
    let (cache, env, _) := BlockIo.updatePVC s.caches.blockIo pvc node devId storage add
      a.removeGetFail a.removeUpdateFail s.env
    { caches := { s.caches with blockIo := cache }, env := env }
  else s

/-- `DeletePVC`; `obj = none` is an object of another type. -/
def deletePVC (lm : LockModel) (handles : List HandleKind) (obj : Option PersistentVolumeClaim)
    (a : ClaimAnswers) (s : SchedState) : Outcome SchedState :=
  match obj with
  | none => .done s
  | some pvc => do
    let held ← lm.lock s.env.held
    let s := { s with env := { s.env with held := held } }
    let s :=
      match s.env.ctx.getStorageInfo (claimKey pvc.name pvc.ns) with
      | .error _ => s
      | .ok info =>
        updatePVCAll handles pvc info.nodeName info.devID info.requestedStorage false a s
    let held ← lm.unlock s.env.held
    return { s with env := { s.env with held := held } }

def boundDevice (pvc : PersistentVolumeClaim) (node : String) (getFail : Option String)
    (env : BlockIo.Env) : Except String (String × Int) :=
  let key := claimKey pvc.name pvc.ns
  match env.ctx.getStorageInfo key with
  | .error _ => .error s!"PVC {key} was not found in IoIContext"
  | .ok _ =>
    match pvc.requestedStorage with
    | none => .error "the PVC storage request is not specified"
    | some qty =>
      match getVolumeDeviceMap env.cms node getFail with
      | .found data =>
        match data.lookup key with
        | some v =>
          match v.splitOn ":" with
          | [dev, _] => .ok (dev, qty)
          | _ => .ok ("", qty)
        | none => .ok ("", qty)
      | _ => .error s!"unable to find the volume device map for node {node}"

def getBoundDeviceId (lm : LockModel) (pvc : PersistentVolumeClaim) (node : String)
    (getFail : Option String) (env : BlockIo.Env) :
    Outcome (BlockIo.Env × Except String (String × Int)) := do
  let held ← lm.lock env.held
  let env := { env with held := held }
  let r := boundDevice pvc node getFail env
  let held ← lm.unlock env.held
  return ({ env with held := held }, r)

/-- The part the two branches of `UpdatePVC` share. -/
def updateBound (lm : LockModel) (handles : List HandleKind) (pvc : PersistentVolumeClaim)
    (node : String) (add : Bool) (a : ClaimAnswers) (s : SchedState) : Outcome SchedState := do
  let (env, r) ← getBoundDeviceId lm pvc node a.getFail s.env
  let s := { s with env := env }
  match r with
  | .error _ => return s
  | .ok (deviceId, qty) =>
    if deviceId ≠ "" ∧ qty ≥ 0 then return updatePVCAll handles pvc node deviceId qty add a s
    else return s

/-- `UpdatePVC`; `none` is an object of another type. -/
def onUpdatePVC (lm : LockModel) (handles : List HandleKind)
    (oldObj newObj : Option PersistentVolumeClaim) (a : ClaimAnswers) (s : SchedState) :
    Outcome SchedState :=
  match oldObj, newObj with
  | some oldPVC, some newPVC =>
    match newPVC.selectedNode, newPVC.storageProvisioner with
    | some node, some provisioner =>
      if provisioner ≠ ioiProvisioner then .done s
      else if oldPVC.phase ≠ .bound ∧ newPVC.phase = .bound then
        updateBound lm handles newPVC node true a s
      else if oldPVC.phase = .bound ∧ newPVC.phase = .lost then
        updateBound lm handles newPVC node false a s
      else .done s
    | _, _ => .done s
  | _, _ => .done s

/-! ## Node status and configuration -/

/-- The `UpdateCacheNodeStatus` of one handler on its cache entry of node `n`. -/
def Caches.applyStatus (h : HandleKind) (n : String) (ctx : ResourceIOContext)
    (st : NodeIOStatusStatus) (classOrder : List String) (c : Caches) : Caches :=
  match h with
  | .blockIo =>
    let update := fun ps => BlockIo.updateCacheNodeStatus ps ctx st
    { c with blockIo := Dict.adjust n update c.blockIo }
  | .networkIo =>
    let update := fun ps => NetworkIo.updateCacheNodeStatus ps ctx st
    { c with networkIo := Dict.adjust n update c.networkIo }
  | .rdt =>
    let update := fun ps => RDT.updateCacheNodeStatus ps st classOrder
    { c with rdt := Dict.adjust n update c.rdt }
  | .rdtQuantity =>
    let update := fun ps => RDTQuantity.updateCacheNodeStatus ps st
    { c with rdtQuantity := Dict.adjust n update c.rdtQuantity }

/-- `UpdateNodeIOStatus`: the status must have changed its hash, kept its number of I/O types, and
be of the generation of the current list. -/
def updateNodeIOStatus (hash : NodeIOStatusStatus → Nat) (handles : List HandleKind)
    (old new : NodeIOStatus) (classOrder : List String) (s : SchedState) : SchedState :=
  match s.env.ctx.getReservedPods new.spec.nodeName with
  | .error _ => s
  | .ok rp =>
    if hash old.status ≠ hash new.status ∧
        old.status.allocatableBandwidth.keys.card = new.status.allocatableBandwidth.keys.card ∧
        new.status.observedGeneration = rp.generation then
      { s with caches := handles.foldl (fun c h =>
        c.applyStatus h new.spec.nodeName s.env.ctx new.status classOrder) s.caches }
    else s

/-- The entry of a device no agent has reported yet. -/
def notReported : Dict WorkloadQoSType IOStatus :=
  (Finmap.singleton .ga ⟨-1, -1, -1, -1⟩ : Dict WorkloadQoSType IOStatus).insert .be
    ⟨-1, -1, -1, -1⟩

/-- `composeAllocableBW`: the devices of all I/O types, or of the one that is given. -/
def composeAllocableBW (config : Dict WorkloadIOType ResourceConfigSpec)
    (typ : Option WorkloadIOType) : AllocatableBandwidth :=
  Dict.filterMapVals (fun k rc =>
    if typ = none ∨ typ = some k then some (Dict.mapVals (fun _ _ => notReported) rc.devices)
    else none) config

/-- The change `UpdateNodeIOStatusInType` makes to a status. -/
def updateNodeIOStatusInType (toUpdate : AllocatableBandwidth) (st : NodeIOStatusStatus) :
    NodeIOStatusStatus :=
  { st with allocatableBandwidth := toUpdate ∪ st.allocatableBandwidth }

/-- The change `UpdateNodeIOStatusInDevice` makes to a status, with the new devices of
`composeDeviceAllocableBW`. -/
def updateNodeIOStatusInDevice (name : String) (t : WorkloadIOType) (adds dels : Dict String Device)
    (st : NodeIOStatusStatus) : Except String NodeIOStatusStatus :=
  match st.allocatableBandwidth.lookup t with
  | none =>
    let typ := t.text
    .error s!"WorkloadIOType {typ} not found in NodeIOStatus {name}"
  | some devices =>
    let cAdds := Dict.mapVals (fun _ _ => notReported) adds
    .ok { st with
      allocatableBandwidth :=
        st.allocatableBandwidth.insert t (Dict.without (cAdds ∪ devices) dels) }

/-- `UpdateAdminConfigData`: the white list is replaced when the ConfigMap has one, and always
ends with the two system namespaces. -/
def updateAdminConfigData (nsWhiteList : Option (List String)) (ctx : ResourceIOContext) :
    ResourceIOContext :=
  match nsWhiteList with
  | some list => { ctx with nsWhiteList := list ++ ["kube-system", "ioi-system"] }
  | none => ctx

end IOIsolation.Sched
