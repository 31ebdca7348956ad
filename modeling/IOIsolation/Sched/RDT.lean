import IOIsolation.Sched.Pools

/-!
# Sched.RDT

The two handlers for Resource Director Technology classes. The RDT handler only reserves a marker
in the pod's entry. The RDT-quantity handler carves each class out of the best-effort class and
keeps the uids of the pods of a class; it finds what to release by uid and does not need the
reserved-pod list.
-/

namespace IOIsolation.Sched

open Lib

namespace RDT

/-- A node's entry in the RDT handler's cache: the pressure of each class. -/
structure Resource where
  nodeName : String
  rdtClassStatus : Dict String ℚ
  deriving DecidableEq

/-- The marker `AddPod` returns for every pod. -/
def marker : IOResourceRequest :=
  { ioType := .rdt
    workloadType := .gaIndex
    devRequest := some {
      devName := "", request := none, limit := none, rawRequest := none, rawLimit := none } }

def addPod (ps : Resource) : Resource × AddResult := (ps, .added [marker])

def removePod (ps : Resource) : Resource := ps

/-- The loop of `UpdateCacheNodeStatus` over the classes, in the order of the loop: classes before
a missing one are updated. -/
def updateClasses (n : String) (bw : Dict String (Dict WorkloadQoSType IOStatus)) :
    List String → Dict String ℚ → Dict String ℚ × Except String Unit
  | [], status => (status, .ok ())
  | class_ :: rest, status =>
    match bw.lookup class_ with
    | none => (status, .error s!"node {n} DeviceBwInfo do not exist")
    | some pools =>
      match pools.lookup .ga with
      | none => (status, .error s!"node {n} rdt class {class_} do not exist")
      | some v =>
        updateClasses n bw rest (if v.pressure ≥ 0 then status.insert class_ v.pressure else status)

/-- `UpdateCacheNodeStatus`; it does not look at the generation. -/
def updateCacheNodeStatus (ps : Resource) (st : NodeIOStatusStatus) (order : List String) :
    Resource :=
  match st.allocatableBandwidth.lookup .rdt with
  | some bw =>
    if bw = ∅ then ps
    else { ps with rdtClassStatus := (updateClasses ps.nodeName bw order ps.rdtClassStatus).1 }
  | none => ps

end RDT

namespace RDTQuantity

structure RdtResource where
  l3 : ℚ
  mb : ℚ
  deriving DecidableEq

structure ClassInfo where
  requests : RdtResource
  limits : RdtResource
  podList : List String
  deriving DecidableEq

structure NodeInfo where
  beScore : ℚ
  l3CacheCapacity : ℚ
  mbCapacity : ℚ
  beL3CapacityBaseline : ℚ
  beMBCapacityBaseline : ℚ
  classes : Dict String ClassInfo
  deriving DecidableEq

structure Resource where
  nodeName : String
  info : NodeInfo
  deriving DecidableEq

def Resource.setClasses (ps : Resource) (classes : Dict String ClassInfo) : Resource :=
  { ps with info := { ps.info with classes := classes } }

def BE : String := "BE"

/-- The four amounts of a request: cache and memory bandwidth, requested and at most. -/
structure Amounts where
  requests : RdtResource
  limits : RdtResource
  deriving DecidableEq

/-- The amounts are kept in the read fields of the four quantities of the protocol record. -/
def amountsOf (d : DeviceRequirement) : Option Amounts :=
  match d.request, d.limit, d.rawRequest, d.rawLimit with
  | some request, some limit, some rawRequest, some rawLimit =>
    some ⟨⟨request.inbps, rawRequest.inbps⟩, ⟨limit.inbps, rawLimit.inbps⟩⟩
  | _, _, _, _ => none

/-- Move `r` out of (`sign = -1`) or back into (`sign = 1`) the best-effort class. -/
def adjustBE (sign : ℚ) (r : RdtResource) (classes : Dict String ClassInfo) :
    Outcome (Dict String ClassInfo) := do
  let be ← Outcome.ofOption (classes.lookup BE)
  return classes.insert BE { be with
    limits := ⟨be.limits.l3 + sign * r.l3, be.limits.mb + sign * r.mb⟩
    requests := ⟨be.requests.l3 + sign * r.l3, be.requests.mb + sign * r.mb⟩ }

/-- `AddPod` for a request of RDT-quantity type (`none` is any other type). A class that exists
with other amounts is replaced. -/
def addPod (ps : Resource) (pod : Pod) (rawRequest : Option IOResourceRequest) :
    Outcome (Resource × AddResult) :=
  match rawRequest with
  | none =>
    .done (ps, .mismatch "unable to convert state into RDTQuantity's pod request format")
  | some requestInfo => do
    let d ← Outcome.ofOption requestInfo.devRequest
    match ps.info.classes.lookup d.devName with
    | some c =>
      if d.devName = BE then
        return (ps.setClasses (ps.info.classes.insert BE
          { c with podList := c.podList ++ [pod.uid] }), .added [requestInfo])
      else do
        let a ← Outcome.ofOption (amountsOf d)
        if a.limits = c.limits ∧ a.requests = c.requests then
          return (ps.setClasses (ps.info.classes.insert d.devName
            { c with podList := c.podList ++ [pod.uid] }), .added [requestInfo])
        else do
          let classes ← adjustBE (-1) a.requests
            (ps.info.classes.insert d.devName ⟨a.requests, a.limits, [pod.uid]⟩)
          return (ps.setClasses classes, .added [requestInfo])
    | none => do
      let a ← Outcome.ofOption (amountsOf d)
      let classes ← adjustBE (-1) a.requests
        (ps.info.classes.insert d.devName ⟨a.requests, a.limits, [pod.uid]⟩)
      return (ps.setClasses classes, .added [requestInfo])

/-- The first class in the order of the loop that has the pod. -/
def classOf (classes : Dict String ClassInfo) (uid : String) : List String → Option (String × ClassInfo)
  | [] => none
  | class_ :: rest =>
    match classes.lookup class_ with
    | some c => if uid ∈ c.podList then some (class_, c) else classOf classes uid rest
    | none => classOf classes uid rest

/-- `RemovePod`; `order` is the order in which the loop visits the classes. -/
def removePod (ps : Resource) (pod : Pod) (order : List String) :
    Outcome (Resource × Except String Unit) :=
  match classOf ps.info.classes pod.uid order with
  | none => .done (ps, .error s!"pod {pod.name} not found in cache")
  | some (class_, c) =>
    let podList := c.podList.erase pod.uid
    if podList = [] ∧ class_ ≠ BE then do
      let classes ← adjustBE 1 c.requests (ps.info.classes.erase class_)
      return (ps.setClasses classes, .ok ())
    else
      .done (ps.setClasses (ps.info.classes.insert class_ { c with podList := podList }), .ok ())

/-- `UpdateCacheNodeStatus`: the score of the best-effort class. -/
def updateCacheNodeStatus (ps : Resource) (st : NodeIOStatusStatus) : Resource :=
  match (st.allocatableBandwidth.lookup .rdtQuantity).bind (·.lookup BE) with
  | some pools =>
    match pools.lookup .ga with
    | some v => { ps with info := { ps.info with beScore := v.pressure } }
    | none => ps
  | none => ps

variable {pod : Pod} {ps ps' : Resource} {requestInfo : IOResourceRequest}
  {classes : Dict String ClassInfo} {uid : String}

theorem addPod_some_added {res : AddResult}
    (h : addPod ps pod (some requestInfo) = .done (ps', res)) : res = .added [requestInfo] := by
  simp only [addPod, Outcome.bind_eq_done] at h
  obtain ⟨d, -, h⟩ := h
  split at h
  · split_ifs at h
    · cases h; rfl
    simp only [Outcome.bind_eq_done] at h
    obtain ⟨a, -, h⟩ := h
    split_ifs at h
    · cases h; rfl
    simp only [Outcome.bind_eq_done] at h
    obtain ⟨classes, -, h⟩ := h
    cases h; rfl
  · simp only [Outcome.bind_eq_done] at h
    obtain ⟨a, -, classes, -, h⟩ := h
    cases h; rfl

theorem addPod_added {reqs : List IOResourceRequest}
    (h : addPod ps pod (some requestInfo) = .done (ps', .added reqs)) : reqs = [requestInfo] :=
  AddResult.added.inj (addPod_some_added h)

/-! ## Finding a pod -/

theorem classOf_eq_none (h : ∀ k c, classes.lookup k = some c → uid ∉ c.podList)
    (order : List String) : classOf classes uid order = none := by
  induction order with
  | nil => rfl
  | cons k order ih =>
    unfold classOf
    cases hk : classes.lookup k with
    | none => exact ih
    | some c =>
      dsimp only
      rw [if_neg (h k c hk), ih]

theorem classOf_eq_some {k : String} {c : ClassInfo} (hk : classes.lookup k = some c)
    (hu : uid ∈ c.podList)
    (honly : ∀ k' c', classes.lookup k' = some c' → uid ∈ c'.podList → k' = k) {order : List String}
    (hmem : k ∈ order) : classOf classes uid order = some (k, c) := by
  induction order with
  | nil => cases hmem
  | cons x order ih =>
    unfold classOf
    by_cases hx : x = k
    · subst hx
      simp only [hk, if_pos hu]
    have hrest := ih ((List.mem_cons.mp hmem).resolve_left fun heq => hx heq.symm)
    cases hl : classes.lookup x with
    | none => exact hrest
    | some c' =>
      dsimp only
      rw [if_neg fun hu' => hx (honly x c' hl hu'), hrest]

end RDTQuantity
end IOIsolation.Sched
