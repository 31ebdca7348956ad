import IOIsolation.Agent.ReservedPods

/-!
# Aggr.PodList

The pod lists the aggregator sends to the node agents: how a list is built from the spec of a node
and the annotations of its pods (`getPodList`), and what the entry of a node in `nodeInfo4Agent`
holds. Only pods that are new since the last spec are looked up; the others are listed without
their requests.

* `describes_getPodList` — the pods whose requests a list carries.
-/

namespace IOIsolation.Aggr

open Lib
open Agent (Describes details)

/-- A decoded annotation in the order its maps are gone through. -/
abbrev AllocatedIOList : Type :=
  AList fun _ : IOType => AList fun _ : String => DeviceAllocatedIo

def bandwidthsOf (q : Quantity) : Quantity :=
  { inbps := q.inbps, outbps := q.outbps, iniops := 0, outiops := 0 }

/-- The request of one device of the annotation; requests and limits keep their bandwidths only. -/
def formatDevice (iotype : IOType) (n : String) (dev : DeviceAllocatedIo) : IOResourceRequest :=
  { ioType := iotype
    workloadType := dev.qos
    devRequest := some
      { devName := n
        request := some (bandwidthsOf dev.request)
        limit := some (bandwidthsOf dev.limit)
        rawRequest := some dev.rawRequest
        rawLimit := some dev.rawLimit } }

/-- `formatPodRequest`, with the name and namespace its caller sets. -/
def formatPodRequest (podName podNamespace : String) (ori : AllocatedIOList) : PodRequest :=
  { podName := podName
    podNamespace := podNamespace
    request := ori.entries.flatMap fun devices =>
      devices.2.entries.map fun dev => formatDevice devices.1 dev.1 dev.2 }

section Build

-- the JSON decoder of the annotation
variable (unmarshal : String → Option AllocatedIOList)

/-- What the answer to the `Get` of a new pod puts into the list: no entry at all after an error or
for an annotation that cannot be read, an entry without requests if there is no annotation. -/
def podEntry : Except String Pod → Option (Option PodRequest)
  | .error _ => none
  | .ok p =>
    match p.annotations.lookup allocatedIOAnno with
    | none => some none
    | some v =>
      match unmarshal v with
      | none => none
      | some allocatedIo => some (some (formatPodRequest p.name p.ns allocatedIo))

/-- `GetPodList`; `get id v` answers the `Get` that is made for the pod `id`. -/
def getPodList (get : String → PodName → Except String Pod) (gen : Int)
    (pods added : Dict String PodName) : ReservedPodList :=
  { generation := gen
    podList := Dict.filterMapVals (fun id _ =>
      match added.lookup id with
      | some v => podEntry unmarshal (get id v)
      | none => some none) pods }

/-- The pods of a spec that the list before it does not have. -/
def addedPods (prevPodList currPodList : Dict String PodName) : Dict String PodName :=
  Dict.without currPodList prevPodList

/-- The `Get` finds the pod, with an annotation that can be read and has a request. -/
def Found (answer : Except String Pod) : Prop :=
  ((podEntry unmarshal answer).bind details).isSome = true

instance (answer : Except String Pod) : Decidable (Found unmarshal answer) :=
  inferInstanceAs (Decidable (_ = true))

theorem describes_getPodList (get : String → PodName → Except String Pod) (gen : Int)
    (pods added : Dict String PodName) (uid : String) :
    Describes (getPodList unmarshal get gen pods added).podList uid ↔
      uid ∈ pods ∧ ∃ v, added.lookup uid = some v ∧ Found unmarshal (get uid v) := by
  unfold Describes getPodList Found
  rw [Dict.lookup_filterMapVals, ← Finmap.lookup_isSome]
  cases pods.lookup uid with
  | none => simp
  | some name =>
    cases added.lookup uid with
    | none => simp [details]
    | some v => simp

end Build

/-! ## The entry of a node -/

/-- The entry of a node in `nodeInfo4Agent`. The map of pods is nil after a spec without pods;
`client` says whether there is a connection to the agent. -/
structure NodeInfo4Agent where
  reservedPod : Option (Dict String PodName)
  latestGeneration : Int
  client : Bool
  deriving DecidableEq

/-- The pods of a spec; an empty map is left out of the resource, so it is read back as nil. -/
def reservedPodsOf (spec : NodeIOStatusSpec) : Option (Dict String PodName) :=
  if spec.reservedPods = ∅ then none else some spec.reservedPods

/-- The pods of an entry; a nil map reads like an empty one. -/
def NodeInfo4Agent.pods (info : NodeInfo4Agent) : Dict String PodName := info.reservedPod.getD ∅

end IOIsolation.Aggr
