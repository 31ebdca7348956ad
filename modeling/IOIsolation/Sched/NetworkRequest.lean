import IOIsolation.Sched.BlockRequest

/-!
# Sched.NetworkRequest

What a pod asks of the master card of a node: reading the bandwidths of the annotation
(`parsePodNetworkIOAnnotations`) and the request of a pod without one. Decoding the text of the
annotation is a parameter.
-/

namespace IOIsolation.Sched.NetworkIo

open Lib

structure NetIOConfig where
  ingress : String
  egress : String
  deriving DecidableEq

structure PodAnnoThroughput where
  requests : NetIOConfig
  limits : NetIOConfig
  deriving DecidableEq

def networkIOConfigAnno : String := "networkio.kubernetes.io/resources"

def mB : ℚ := 1000 * 1000

/-- A `B` for bytes may follow the amount. -/
def parseNetworkRequestBandwidth [QuantityParser] (config : String) : Option Amount :=
  let cs := config.toList
  parseQuantity (String.ofList (if cs.getLast? = some 'B' then cs.dropLast else cs))

def megabytesOf (bw : Option Amount) : ℚ :=
  match bw with
  | some bw => (bw.asInt64.getD 0 : Int) / mB
  | none => 0

/-- On a registered card a pod gets at least the default. -/
def NodeInfo.atLeastDefault (info : NodeInfo) (bw : ℚ) : ℚ :=
  match info.nicsStatus.lookup info.masterNic with
  | some nic => max bw nic.defaultSpeed
  | none => bw

/-- `parsePodNetworkIOAnnotations`. A request with equal positive limits is guaranteed; so is every
other one that has an amount, and its missing limits are left open. -/
def parsePodNetworkIOAnnotations [QuantityParser] (podAnno : PodAnnoThroughput) (info : NodeInfo) :
    IOResourceRequest :=
  let inbw := parseNetworkRequestBandwidth podAnno.requests.ingress
  let outbw := parseNetworkRequestBandwidth podAnno.requests.egress
  let inlimbw := parseNetworkRequestBandwidth podAnno.limits.ingress
  let outlimbw := parseNetworkRequestBandwidth podAnno.limits.egress
  let equalLimits : Bool :=
    match inbw, inlimbw, outbw, outlimbw with
    | some i, some il, some o, some ol =>
      0 < megabytesOf inbw * megabytesOf outbw * megabytesOf inlimbw * megabytesOf outlimbw &&
        i.value = il.value && o.value = ol.value
    | _, _, _, _ => false
  let inLimit := megabytesOf inlimbw
  let outLimit := megabytesOf outlimbw
  let request (workloadType : WorkloadType) (reqIn reqOut limIn limOut : ℚ) : IOResourceRequest :=
    { ioType := .networkIo, workloadType := workloadType
      devRequest := some ⟨info.masterNic, some ⟨reqIn, reqOut, 0, 0⟩, some ⟨limIn, limOut, 0, 0⟩,
        none, none⟩ }
  if equalLimits then
    request .gaIndex (info.atLeastDefault (megabytesOf inbw)) (info.atLeastDefault (megabytesOf outbw))
      (info.atLeastDefault inLimit) (info.atLeastDefault outLimit)
  else if inbw.isNone ∧ inlimbw.isNone ∧ outbw.isNone ∧ outlimbw.isNone then
    request .beIndex 0 0 0 0
  else
    request .gaIndex (info.atLeastDefault (megabytesOf inbw)) (info.atLeastDefault (megabytesOf outbw))
      (info.atLeastDefault (if inlimbw.isNone then BlockIo.maxBtLimit else inLimit))
      (info.atLeastDefault (if outlimbw.isNone then BlockIo.maxBtLimit else outLimit))

/-- `GetRequestByAnnotation` on the resource of the node; `decode` is what reading a text gives. -/
def getRequestByAnnotation [QuantityParser] (decode : String → Option PodAnnoThroughput)
    (ps : Resource) (pod : Pod) :
    Except String RequestInfo :=
  let masterNic := ps.info.masterNic
  match ps.info.nicsStatus.lookup masterNic with
  | none => .error s!"network io resource does not contain device info: {masterNic}"
  | some _ =>
    match (pod.annotations.lookup networkIOConfigAnno).bind decode with
    | some podAnno =>
      .ok (AList.singleton masterNic (parsePodNetworkIOAnnotations podAnno ps.info))
    | none =>
      .ok (AList.singleton masterNic { ioType := .networkIo, workloadType := .beIndex
                                       devRequest := some ⟨masterNic, none, none, none, none⟩ })

theorem parsePodNetworkIOAnnotations_guaranteed [QuantityParser] {podAnno : PodAnnoThroughput}
    (info : NodeInfo)
    (h : (parseNetworkRequestBandwidth podAnno.requests.ingress).isSome ∨
      (parseNetworkRequestBandwidth podAnno.requests.egress).isSome) :
    ∃ limit, parsePodNetworkIOAnnotations podAnno info =
      { ioType := .networkIo, workloadType := .gaIndex
        devRequest := some ⟨info.masterNic, some ⟨info.atLeastDefault
              (megabytesOf (parseNetworkRequestBandwidth podAnno.requests.ingress)),
            info.atLeastDefault
              (megabytesOf (parseNetworkRequestBandwidth podAnno.requests.egress)), 0, 0⟩,
          some limit, none, none⟩ } := by
  unfold parsePodNetworkIOAnnotations
  extract_lets inbw outbw inlimbw outlimbw equalLimits inLimit outLimit request
  have hsome : ¬ (inbw.isNone ∧ inlimbw.isNone ∧ outbw.isNone ∧ outlimbw.isNone) := by
    rintro ⟨hin, -, hout, -⟩
    have hin' : ¬ inbw.isSome := by simp [hin]
    have hout' : ¬ outbw.isSome := by simp [hout]
    exact not_or.mpr ⟨hin', hout'⟩ h
  by_cases hequal : equalLimits = true
  · rw [if_pos hequal]
    exact ⟨_, rfl⟩
  · rw [if_neg hequal, if_neg hsome]
    exact ⟨_, rfl⟩

end IOIsolation.Sched.NetworkIo
