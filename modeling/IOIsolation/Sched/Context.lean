import IOIsolation.Types
import IOIsolation.Lib.WorkQueue

/-!
# Sched.Context

The scheduler's shared context `IoiContext`: the reserved-pod list of every node, the map from
claims to devices, the namespace white list, the work queue to the custom resource, and the
generation last written for each node. Every function here runs inside one section of the
context's mutex and is one atomic step.
-/

namespace IOIsolation.Sched

open Lib

structure StorageInfo where
  devID : String
  requestedStorage : Int
  nodeName : String
  deriving DecidableEq

/-- A work item: the spec to write, and the pod whose annotation to write (`req`) or delete. -/
structure SyncContext where
  spec : Option NodeIOStatusSpec
  pod : Pod
  req : Option PodRequest
  deriving DecidableEq

structure ResourceIOContext where
  reservedpod : Dict String PodList
  nsWhiteList : List String
  claimDevMap : Dict String StorageInfo
  queue : WorkQueue SyncContext
  lastUpdatedGen : Dict String Int
  deriving DecidableEq

namespace ResourceIOContext

def getStorageInfo (c : ResourceIOContext) (pvc : String) : Except String StorageInfo :=
  match c.claimDevMap.lookup pvc with
  | some v => .ok v
  | none => .error s!"pvc {pvc} doesn't exist in reserved pod"

def getReservedPods (c : ResourceIOContext) (node : String) : Except String PodList :=
  match c.reservedpod.lookup node with
  | some v => .ok v
  | none => .error s!"node {node} doesn't exist in reserved pod"

/-- The spec of a node's `NodeIOStatus`: names and namespaces only. -/
def specOf (node : String) (v : PodList) : NodeIOStatusSpec :=
  { nodeName := node
    generation := v.generation
    reservedPods := Dict.mapVals (fun _ pr => ⟨pr.podName, pr.podNamespace⟩) v.podList }

def getReservedPodsWithNameNS (c : ResourceIOContext) (node : String) :
    Except String NodeIOStatusSpec :=
  match c.reservedpod.lookup node with
  | some v => .ok (specOf node v)
  | none => .error s!"node {node} doesn't exist in reserved pod"

/-- Installing a list also forgets which generation was last written for the node. -/
def setReservedPods (c : ResourceIOContext) (node : String) (pl : PodList) : ResourceIOContext :=
  { c with
    reservedpod := c.reservedpod.insert node pl
    lastUpdatedGen := c.lastUpdatedGen.insert node (-1) }

/-- Queue the node's spec together with the annotation of one pod; for an unknown node the spec
of the item is nil. -/
def updateReservedPods (c : ResourceIOContext) (node : String) (pod : Pod)
    (req : Option PodRequest) : ResourceIOContext :=
  { c with queue := c.queue.add ⟨(c.getReservedPodsWithNameNS node).toOption, pod, req⟩ }

def inNamespaceWhiteList (c : ResourceIOContext) (ns : String) : Bool :=
  c.nsWhiteList.contains ns

def addPod (c : ResourceIOContext) (reqlist : PodRequest) (pod : Pod) (nodeName : String) :
    ResourceIOContext × Except String Unit :=
  match c.getReservedPods nodeName with
  | .error err => (c, .error s!"get reserved pods error: {err}")
  | .ok podreq =>
    let c' := c.setReservedPods nodeName
      ⟨podreq.generation + 1, podreq.podList.insert pod.uid reqlist⟩
    (c'.updateReservedPods nodeName pod (some reqlist), .ok ())

/-- `IoiContext.RemovePod`: the list is the one of the pod's own node, the spec to write the one
of `nodeName`. -/
def removePod (c : ResourceIOContext) (pod : Pod) (nodeName : String) :
    ResourceIOContext × Except String Unit :=
  match c.getReservedPods pod.nodeName with
  | .error err => (c, .error s!"get reserved pods error: {err}")
  | .ok v =>
    let c' := { c with reservedpod :=
      c.reservedpod.insert pod.nodeName ⟨v.generation + 1, v.podList.erase pod.uid⟩ }
    (c'.updateReservedPods nodeName pod none, .ok ())

/-- The end of `Reserve`: a pod without any request is not entered in the list. -/
def record (c : ResourceIOContext) (reqs : List IOResourceRequest) (pod : Pod)
    (nodeName : String) : ResourceIOContext :=
  if reqs = [] then c else (c.addPod ⟨pod.name, pod.ns, reqs⟩ pod nodeName).1

variable {c : ResourceIOContext} {node : String} {pod : Pod} {req : PodRequest} {l : PodList}

theorem getReservedPods_ok : c.getReservedPods node = .ok l ↔ c.reservedpod.lookup node = some l := by
  unfold getReservedPods
  cases c.reservedpod.lookup node <;> simp

theorem addPod_of_lookup (h : c.reservedpod.lookup node = some l) :
    c.addPod req pod node =
      ({ c with
          reservedpod := c.reservedpod.insert node ⟨l.generation + 1, l.podList.insert pod.uid req⟩
          lastUpdatedGen := c.lastUpdatedGen.insert node (-1)
          queue := c.queue.add ⟨some (specOf node ⟨l.generation + 1, l.podList.insert pod.uid req⟩),
            pod, some req⟩ }, .ok ()) := by
  simp [addPod, getReservedPods, h, setReservedPods, updateReservedPods, getReservedPodsWithNameNS,
    Except.toOption]

theorem addPod_of_none (h : c.reservedpod.lookup node = none) :
    (c.addPod req pod node).1 = c := by
  simp [addPod, getReservedPods, h]

theorem removePod_of_lookup (hn : pod.nodeName = node) (h : c.reservedpod.lookup node = some l) :
    c.removePod pod node =
      ({ c with
          reservedpod := c.reservedpod.insert node ⟨l.generation + 1, l.podList.erase pod.uid⟩
          queue := c.queue.add
            ⟨some (specOf node ⟨l.generation + 1, l.podList.erase pod.uid⟩), pod, none⟩ },
        .ok ()) := by
  subst hn
  simp [removePod, getReservedPods, h, updateReservedPods, getReservedPodsWithNameNS,
    Except.toOption]

theorem removePod_of_none (h : c.reservedpod.lookup pod.nodeName = none) :
    (c.removePod pod node).1 = c := by
  simp [removePod, getReservedPods, h]

end ResourceIOContext

def enter (pods : Dict String PodRequest) (reqs : List IOResourceRequest) (pod : Pod) :
    Dict String PodRequest :=
  if reqs = [] then pods else pods.insert pod.uid ⟨pod.name, pod.ns, reqs⟩

theorem lookup_enter {pods : Dict String PodRequest} {pod : Pod}
    {reqs : List IOResourceRequest} {uid : String} {e : PodRequest}
    (h : (enter pods reqs pod).lookup uid = some e) :
    pods.lookup uid = some e ∨ uid = pod.uid ∧ e.request = reqs := by
  unfold enter at h
  split at h
  · exact .inl h
  rw [Dict.lookup_insert_ite] at h
  split at h
  · rename_i huid
    cases h
    exact .inr ⟨huid, rfl⟩
  · exact .inl h

theorem ResourceIOContext.lookup_record {c : ResourceIOContext} {node : String} {l : PodList}
    (reqs : List IOResourceRequest) (pod : Pod) (h : c.reservedpod.lookup node = some l) :
    ∃ l', (c.record reqs pod node).reservedpod.lookup node = some l' ∧
      l'.podList = enter l.podList reqs pod := by
  unfold ResourceIOContext.record enter
  split
  · exact ⟨l, h, rfl⟩
  · rw [ResourceIOContext.addPod_of_lookup h]
    simp

end IOIsolation.Sched
