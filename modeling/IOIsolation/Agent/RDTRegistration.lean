import IOIsolation.Sched.RDTRuns
import IOIsolation.Service.Rdt

/-!
# Agent.RDTRegistration

What the agent registers with the service for a container of a pod with an RDT-quantity annotation.
The agent reads the annotation again, after the scheduler, and goes on where a text does not parse.

* `registered_iff` — the amounts registered are the ones charged for a pod that requests no cache.
-/

namespace IOIsolation.Agent

open Lib Sched Sched.RDTQuantity Service.Rdt

structure ContainerInfo where
  podUid : String
  podName : String
  containerName : String
  containerId : String
  ns : String
  rdtQuantityAnno : String
  containerCGroupPath : String

/-- `AnalysisNriContainerData`: a missing annotation is the empty text. -/
def analysisNriContainerData (pod : Pod) (cgroupParent name id : String) : ContainerInfo where
  podUid := pod.uid
  podName := pod.name
  containerName := name
  containerId := id
  ns := pod.ns
  rdtQuantityAnno := (pod.annotations.lookup rdtQuantityConfigAnno).getD ""
  containerCGroupPath := "/sys/fs/cgroup" ++ cgroupParent ++ "/cri-containerd-" ++ id ++ ".scope"

/-- The class and the texts the agent works with; an incomplete annotation is only logged. -/
def completeAnno (anno : RDTAnnotationResource) (podName : String) : RDTAnnotationResource :=
  let class_ := if anno.class_ = "" then podName else anno.class_
  if anno.requests = ⟨"", ""⟩ ∧ anno.limits = ⟨"", ""⟩ then { anno with class_ := BE }
  else if anno.requests.l3 = "" ∨ anno.requests.mb = "" then { anno with class_ := class_ }
  else {
    requests := anno.requests
    limits := ⟨orElse anno.limits.l3 anno.requests.l3, orElse anno.limits.mb anno.requests.mb⟩
    class_ := class_ }

/-- The amount kept from a `Parse` whose error is only logged. -/
def parsed : Except String ℚ → ℚ
  | .ok v => v
  | .error _ => 0

/-- `IOIRegisterRDTQuantity`: the record sent to the service, if one is sent. -/
def ioiRegisterRDTQuantity (unmarshal : String → Except String RDTAnnotationResource)
    (c : ContainerInfo) : Option RDTAppInfo :=
  let rdtinfo : RDTAppInfo :=
    ⟨c.containerName, c.containerCGroupPath, "", c.podUid, c.podName, ⟨0, 0, 0, 0⟩⟩
  if c.rdtQuantityAnno = "" then some rdtinfo
  else
    match unmarshal c.rdtQuantityAnno with
    | .error _ => none
    | .ok anno =>
      let anno := completeAnno anno c.podName
      let info := rdtinfo.rdtClassInfo
      -- the request is written to the field of the limit, which the next line writes again
      let info := { info with l3CacheLim := parsed (parseL3 anno.requests.l3) }
      let info := { info with l3CacheLim := parsed (parseL3 anno.limits.l3) }
      let info := { info with mbaReq := parsed (parseMb anno.requests.mb) }
      let info := { info with mbaLim := parsed (parseMb anno.limits.mb) }
      some { rdtinfo with rdtClass := anno.class_, rdtClassInfo := info }

def registeredAmounts (info : RDTClassInfo) : Amounts :=
  ⟨⟨info.l3CacheReq, info.mbaReq⟩, ⟨info.l3CacheLim, info.mbaLim⟩⟩

variable {unmarshal : String → Except String RDTAnnotationResource} {pod : Pod}
  {node cgroupParent name id class_ : String} {cache : Dict String Resource}
  {r : IOResourceRequest} {anno full : RDTAnnotationResource} {a : Amounts}

theorem completeAnno_of_complete {podName : String} (h : anno.complete podName = .ok full) :
    completeAnno anno podName = full := by
  simp only [RDTAnnotationResource.complete] at h
  simp only [completeAnno]
  split at h
  · rename_i hnone
    cases h
    rw [if_pos hnone]
  rename_i hsome
  split at h
  · cases h
  rename_i hfull
  cases h
  rw [if_neg hsome, if_neg hfull]

/-- The registration has the class and three of the amounts; the cache request stays zero. -/
theorem register_of_complete {c : ContainerInfo} (hne : c.rdtQuantityAnno ≠ "")
    (hanno : unmarshal c.rdtQuantityAnno = .ok anno)
    (hfull : anno.complete c.podName = .ok full) (ha : full.amounts = .ok a) :
    ∃ info, ioiRegisterRDTQuantity unmarshal c = some info ∧ info.rdtClass = full.class_ ∧
      registeredAmounts info.rdtClassInfo = ⟨⟨0, a.requests.mb⟩, a.limits⟩ := by
  obtain ⟨-, hlimL3, hreqMb, hlimMb⟩ := RDTAnnotationResource.amounts_ok ha
  simp only [ioiRegisterRDTQuantity, if_neg hne, hanno, completeAnno_of_complete hfull]
  refine ⟨_, rfl, rfl, ?_⟩
  simp only [registeredAmounts, hlimL3, hreqMb, hlimMb, parsed]

/-- JSON does not decode the empty text. The registration of a container of a pod whose annotation
the scheduler accepted names the class charged, and has the amounts charged when the pod requests no
cache. -/
theorem registered_iff (hempty : ∀ anno, unmarshal "" ≠ .ok anno)
    (h : getRequestByAnnotation cache unmarshal pod node = .ok (class_, r)) :
    ∃ d a info, r.devRequest = some d ∧ amountsOf d = some a ∧
      ioiRegisterRDTQuantity unmarshal (analysisNriContainerData pod cgroupParent name id) =
        some info ∧
      info.rdtClass = class_ ∧
      (registeredAmounts info.rdtClassInfo = a ↔ a.requests.l3 = 0) := by
  obtain ⟨v, anno, full, a, hv, hanno, hfull, ha, rfl, rfl⟩ := request_cases h
  have htext : (analysisNriContainerData pod cgroupParent name id).rdtQuantityAnno = v := by
    simp [analysisNriContainerData, hv]
  have hne : v ≠ "" := by
    rintro rfl
    exact hempty anno hanno
  rw [← htext] at hne hanno
  obtain ⟨info, hreg, hclass, hamounts⟩ := register_of_complete hne hanno hfull ha
  obtain ⟨d, hd, -, hda⟩ := amountsOf_requestOf full.class_ a
  refine ⟨d, a, info, hd, hda, hreg, hclass, ?_⟩
  rw [hamounts]
  constructor
  · intro heq
    rw [← heq]
  · intro hzero
    rw [← hzero]

/-- Every text that is not empty is the annotation with this cache request. -/
def decodeCache (l3 v : String) : Except String RDTAnnotationResource :=
  if v = "" then .error "unexpected end of JSON input"
  else .ok ⟨⟨l3, "30MBps"⟩, ⟨"100MiB", ""⟩, "class1"⟩

def quantityCache : Dict String Resource :=
  Finmap.singleton "node1" (addCacheNodeInfo "node1" (quantityConfig 10))

theorem registered_of_no_cache :
    ∃ d a info, (requestOf "class1" ⟨⟨0, 30⟩, ⟨100, 30⟩⟩).devRequest = some d ∧
      amountsOf d = some a ∧
      ioiRegisterRDTQuantity (decodeCache "0MiB")
        (analysisNriContainerData (quantityPod "u1") "/pod" "main" "c1") = some info ∧
      info.rdtClass = "class1" ∧
      (registeredAmounts info.rdtClassInfo = a ↔ a.requests.l3 = 0) :=
  registered_iff (by simp [decodeCache])
    (show getRequestByAnnotation quantityCache (decodeCache "0MiB") (quantityPod "u1") "node1" = _
      by decide +kernel)

/-- A pod is charged for 40 MiB of cache and registered with a request of none. -/
theorem cache_request_not_registered :
    getRequestByAnnotation quantityCache (decodeCache "40MiB") (quantityPod "u1") "node1" =
        .ok ("class1", requestOf "class1" ⟨⟨40, 30⟩, ⟨100, 30⟩⟩) ∧
      (ioiRegisterRDTQuantity (decodeCache "40MiB")
        (analysisNriContainerData (quantityPod "u1") "/pod" "main" "c1")).map
          (fun info => registeredAmounts info.rdtClassInfo) =
        some ⟨⟨0, 30⟩, ⟨100, 30⟩⟩ := by
  decide +kernel

end IOIsolation.Agent
