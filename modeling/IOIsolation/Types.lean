import IOIsolation.Lib.Dict
import Mathlib.Data.Rat.Defs

/-!
# IOIsolation.Types

The records the scheduler, the aggregator and the node agent exchange: the requests of a pod,
the list of reserved pods of a node, the two custom resources, and the parts of the Kubernetes
objects the code reads. Bandwidths are exact rationals; Go `int`s and `int64`s are integers.
A pointer that the code tests for nil, or dereferences without a test, is an `Option`.
-/

namespace IOIsolation

open Lib

/-! ## Requests -/

/-- The quality-of-service index of a request. -/
inductive WorkloadType where
  | gaIndex
  | btIndex
  | beIndex
  | groupIndex
  deriving DecidableEq

/-- The `IOType` enumeration of the aggregator protocol. -/
inductive IOType where
  | all
  | diskIo
  | networkIo
  | rdt
  | rdtQuantity
  deriving DecidableEq

structure Quantity where
  inbps : ℚ
  outbps : ℚ
  iniops : ℚ
  outiops : ℚ
  deriving DecidableEq

structure DeviceRequirement where
  devName : String
  request : Option Quantity
  limit : Option Quantity
  rawRequest : Option Quantity
  rawLimit : Option Quantity
  deriving DecidableEq

/-- What one pod asks of one device or class. -/
structure IOResourceRequest where
  ioType : IOType
  workloadType : WorkloadType
  devRequest : Option DeviceRequirement
  deriving DecidableEq

structure PodRequest where
  podName : String
  podNamespace : String
  request : List IOResourceRequest
  deriving DecidableEq

/-- The reserved pods of one node by uid, under a generation that every change raises. -/
structure PodList where
  generation : Int
  podList : Dict String PodRequest
  deriving DecidableEq

/-- A pod list on its way to an agent. A pod without details (`none`) is listed only: the agent is
expected to know its requests from an earlier list. -/
structure ReservedPodList where
  generation : Int
  podList : Dict String (Option PodRequest)
  deriving DecidableEq

structure UpdateReservedPodsRequest where
  nodeName : String
  reservedPods : ReservedPodList
  deriving DecidableEq

/-! ## Kubernetes objects -/

structure Volume where
  name : String
  claimName : Option String
  emptyDir : Bool
  deriving DecidableEq

structure Pod where
  uid : String
  name : String
  ns : String
  nodeName : String
  annotations : Dict String String
  volumes : List Volume
  deriving DecidableEq

inductive ClaimPhase where
  | pending
  | bound
  | lost
  deriving DecidableEq

structure PersistentVolumeClaim where
  name : String
  ns : String
  phase : ClaimPhase
  storageClassName : Option String
  selectedNode : Option String
  storageProvisioner : Option String
  requestedStorage : Option Int
  deriving DecidableEq

/-- The key of a claim in the maps of bound devices. -/
def claimKey (claim ns : String) : String := claim ++ "." ++ ns

/-! ## Custom resources -/

inductive DeviceType where
  | defaultDevice
  | otherDevice
  deriving DecidableEq

/-- The profile of one device in a `NodeStaticIOInfo`. -/
structure Device where
  name : String
  type : DeviceType
  defaultIn : ℚ
  defaultOut : ℚ
  readRatio : Dict String ℚ
  writeRatio : Dict String ℚ
  capacityIn : ℚ
  capacityOut : ℚ
  capacityTotal : ℚ
  diskSize : String
  mountPath : String
  deriving DecidableEq

structure ResourceConfigSpec where
  bePool : Int
  devices : Dict String Device
  classes : List String
  deriving DecidableEq

/-- A reserved pod as a `NodeIOStatus` spec lists it. -/
structure PodName where
  name : String
  ns : String
  deriving DecidableEq

structure NodeIOStatusSpec where
  nodeName : String
  generation : Int
  reservedPods : Dict String PodName
  deriving DecidableEq

inductive WorkloadIOType where
  | blockIo
  | networkIo
  | rdt
  | rdtQuantity
  deriving DecidableEq

def WorkloadIOType.text : WorkloadIOType → String
  | blockIo => "BlockIO"
  | networkIo => "NetworkIO"
  | rdt => "RDT"
  | rdtQuantity => "RDTQuantity"

inductive WorkloadQoSType where
  | be
  | ga
  | bt
  deriving DecidableEq

structure IOStatus where
  total : ℚ
  inBps : ℚ
  outBps : ℚ
  pressure : ℚ
  deriving DecidableEq

/-- Allocatable bandwidth by I/O type, device and quality of service. -/
abbrev AllocatableBandwidth : Type :=
  Dict WorkloadIOType (Dict String (Dict WorkloadQoSType IOStatus))

structure NodeIOStatusStatus where
  observedGeneration : Int
  allocatableBandwidth : AllocatableBandwidth
  deriving DecidableEq

structure NodeIOStatus where
  spec : NodeIOStatusSpec
  status : NodeIOStatusStatus
  deriving DecidableEq

/-! ## The annotation -/

/-- The annotation the scheduler writes the reserved bandwidth of a pod into. -/
def allocatedIOAnno : String := "ioi.intel.com/allocated-io"

/-- What the annotation says about one device; a missing quantity is all zero. -/
structure DeviceAllocatedIo where
  qos : WorkloadType
  request : Quantity
  limit : Quantity
  rawRequest : Quantity
  rawLimit : Quantity
  deriving DecidableEq

abbrev AllocatedIo : Type := Dict IOType (Dict String DeviceAllocatedIo)

end IOIsolation
