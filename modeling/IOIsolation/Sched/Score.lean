import IOIsolation.Sched.Overcommit
import IOIsolation.Sched.RDTRuns
import IOIsolation.Sched.Plugin

/-!
# Sched.Score

The score of a node: the pressure ratio of each configured handler (`NodePressureRatio`) becomes
points by the scoring strategy, and `Score` takes the average. The handlers read the entry of the
node that `CanAdmitPod` handed on. Ratios are exact; a division by zero leaves no number.

* `points_inRange`       — the points are between 0 and 100 exactly when 100 times the ratio is
  between -1 and 101, for both strategies.
* `pressureRatio_mem`    — the ratio of an admitted request to a disk or a card is between 0 and 1.
* `scoresInRange_iff`    — a node has a score between 0 and 100 under every configuration exactly
  when the two RDT handlers find a small enough pressure.
* `not_alwaysInRange`    — a best-effort pod on a fresh node of the RDT-quantity handler has 10000
  points.
-/

namespace IOIsolation.Sched

open Lib List Option

/-! ## Devices -/

/-- The part of a pool an amount takes; an empty pool is full. -/
def poolRatio (amount pool : ℚ) : ℚ := if pool ≠ 0 then amount / pool else 1

theorem poolRatio_mem {amount pool : ℚ} (h0 : 0 ≤ amount) (h : amount ≤ pool) :
    0 ≤ poolRatio amount pool ∧ poolRatio amount pool ≤ 1 := by
  have hpool : 0 ≤ pool := h0.trans h
  unfold poolRatio
  split_ifs
  · exact ⟨div_nonneg h0 hpool, div_le_one_of_le₀ h hpool⟩
  · norm_num

/-- The loop of `NodePressureRatio` over the requested devices. The admission check has read the
bandwidths of a guaranteed request before. -/
def addRatios (gaPool : String → Option IOPoolStatus)
    (deviceRatio : IOPoolStatus → Quantity → ℚ) :
    List (String × IOResourceRequest) → ℚ → Outcome (Except String ℚ)
  | [], ratio => .done (.ok ratio)
  | (dev, req) :: rest, ratio =>
    if req.workloadType = .beIndex then addRatios gaPool deviceRatio rest ratio
    else
      match gaPool dev with
      | none => .done (.error s!"cannot find device {dev} in pool")
      | some ga => do
        let d ← Outcome.ofOption req.devRequest
        let q ← Outcome.ofOption d.request
        addRatios gaPool deviceRatio rest (ratio + deviceRatio ga q)

def pressureRatio (gaPool : String → Option IOPoolStatus)
    (deviceRatio : IOPoolStatus → Quantity → ℚ) (reqs : List (String × IOResourceRequest)) :
    Outcome (Except String ℚ) := do
  match ← addRatios gaPool deviceRatio reqs 0 with
  | .error err => return .error err
  | .ok ratio => return .ok (if reqs = [] then 1 / 2 else ratio / reqs.length)

/-- The device takes no part, or its ratio is between 0 and 1. -/
def Bearable (gaPool : String → Option IOPoolStatus) (deviceRatio : IOPoolStatus → Quantity → ℚ)
    (dev : String) (req : IOResourceRequest) : Prop :=
  req.workloadType = .beIndex ∨ ∃ d q ga, req.devRequest = some d ∧ d.request = some q ∧
    gaPool dev = some ga ∧ 0 ≤ deviceRatio ga q ∧ deviceRatio ga q ≤ 1

variable {gaPool : String → Option IOPoolStatus} {x : ℚ} {reqs : List (String × IOResourceRequest)}

/-- By induction on the requests; each adds at most one. -/
theorem addRatios_mem {deviceRatio : IOPoolStatus → Quantity → ℚ}
    (h : ∀ x ∈ reqs, Bearable gaPool deviceRatio x.1 x.2) :
    ∀ ratio, ∃ r, addRatios gaPool deviceRatio reqs ratio = .done (.ok r) ∧ ratio ≤ r ∧
      r ≤ ratio + reqs.length := by
  induction reqs with
  | nil => exact fun ratio => ⟨ratio, rfl, le_rfl, by simp⟩
  | cons x rest ih =>
    intro ratio
    obtain ⟨dev, req⟩ := x
    have hrest := ih fun y hy => h y (mem_cons_of_mem _ hy)
    simp only [length_cons, Nat.cast_add, Nat.cast_one]
    rw [addRatios]
    split_ifs with hbe
    · obtain ⟨r, hr, hle, hge⟩ := hrest ratio
      exact ⟨r, hr, hle, by linarith⟩
    obtain ⟨d, q, ga, hd, hq, hga, h0, h1⟩ := (h _ mem_cons_self).resolve_left hbe
    obtain ⟨r, hr, hle, hge⟩ := hrest (ratio + deviceRatio ga q)
    refine ⟨r, ?_, by linarith, by linarith⟩
    dsimp only at hga hd
    simp only [hga, hd, hq, Outcome.ofOption_some, Outcome.done_bind, hr]

theorem pressureRatio_mem {deviceRatio : IOPoolStatus → Quantity → ℚ}
    (h : ∀ x ∈ reqs, Bearable gaPool deviceRatio x.1 x.2) :
    ∃ r, pressureRatio gaPool deviceRatio reqs = .done (.ok r) ∧ 0 ≤ r ∧ r ≤ 1 := by
  obtain ⟨total, htotal, h0, h1⟩ := addRatios_mem h 0
  refine ⟨if reqs = [] then 1 / 2 else total / reqs.length, ?_, ?_⟩
  · simp [pressureRatio, htotal]
  split_ifs with hnil
  · norm_num
  have hlen : (0 : ℚ) ≤ reqs.length := Nat.cast_nonneg _
  rw [zero_add] at h1
  exact ⟨div_nonneg h0 hlen, div_le_one_of_le₀ h1 hlen⟩

theorem bearable_of_admitted {deviceRatio : IOPoolStatus → Quantity → ℚ}
    {name nodeName dev : String} {p : Pools} {bem : IOPoolStatus} {req : IOResourceRequest}
    (hratio : ∀ (ga : IOPoolStatus) (q : Quantity), 0 ≤ q.inbps → 0 ≤ q.outbps →
      q.inbps ≤ ga.inBps → q.outbps ≤ ga.outBps → q.inbps + q.outbps ≤ ga.total →
      0 ≤ deviceRatio ga q ∧ deviceRatio ga q ≤ 1) (hga : gaPool dev = some p.ga)
    (hs : Schedulable req) (hn : NonNeg (demand req))
    (h : admitDevice name nodeName p bem req = .done (.ok ())) :
    Bearable gaPool deviceRatio dev req := by
  rcases hs.cases with ⟨d, q, hw, hd, hq⟩ | ⟨d, hw, -⟩
  · have hdemand : demand req = (q.inbps, q.outbps, 0) := by simp [demand, hw, hd, hq]
    have hfits := admitDevice_ga h hw
    rw [hdemand] at hfits hn
    exact .inr ⟨d, q, p.ga, hd, hq, hga, hratio p.ga q hn.1 hn.2 hfits.1 hfits.2.1 hfits.2.2⟩
  · exact .inl hw

/-! ## The handlers -/

namespace BlockIo

def deviceRatio (ga : IOPoolStatus) (q : Quantity) : ℚ :=
  (poolRatio q.inbps ga.inBps + poolRatio q.outbps ga.outBps +
    poolRatio (q.inbps + q.outbps) ga.total) / 3

theorem deviceRatio_mem (ga : IOPoolStatus) (q : Quantity) (hi : 0 ≤ q.inbps) (ho : 0 ≤ q.outbps)
    (hin : q.inbps ≤ ga.inBps) (hout : q.outbps ≤ ga.outBps)
    (htotal : q.inbps + q.outbps ≤ ga.total) : 0 ≤ deviceRatio ga q ∧ deviceRatio ga q ≤ 1 := by
  have h1 := poolRatio_mem hi hin
  have h2 := poolRatio_mem ho hout
  have h3 := poolRatio_mem (add_nonneg hi ho) htotal
  unfold deviceRatio
  constructor <;> linarith [h1.1, h1.2, h2.1, h2.2, h3.1, h3.2]

def nodePressureRatio (request : Option RequestInfo) (pool : Option Disks) :
    Outcome (Except String ℚ) :=
  match request, pool with
  | none, _ => .done (.error "unable to convert state into BlockIOHandle's pod request format")
  | some _, none =>
    .done (.error "unable to convert state into BlockIOHandle's node resource pool format")
  | some r, some disks =>
    pressureRatio (fun dev => (disks.lookup dev).map fun disk => disk.ga) deviceRatio
      (r.resourceRequest.entries.map fun e => (e.1, e.2.ioRequest))

end BlockIo

namespace NetworkIo

def deviceRatio (ga : IOPoolStatus) (q : Quantity) : ℚ :=
  (poolRatio q.inbps ga.inBps + poolRatio q.outbps ga.outBps) / 2

theorem deviceRatio_mem (ga : IOPoolStatus) (q : Quantity) (hi : 0 ≤ q.inbps) (ho : 0 ≤ q.outbps)
    (hin : q.inbps ≤ ga.inBps) (hout : q.outbps ≤ ga.outBps) :
    0 ≤ deviceRatio ga q ∧ deviceRatio ga q ≤ 1 := by
  have h1 := poolRatio_mem hi hin
  have h2 := poolRatio_mem ho hout
  unfold deviceRatio
  constructor <;> linarith [h1.1, h1.2, h2.1, h2.2]

def nodePressureRatio (request : Option RequestInfo) (pool : Option NICs) :
    Outcome (Except String ℚ) :=
  match request, pool with
  | none, _ => .done (.error "unable to convert state into NetworkIOHandle's pod request format")
  | some _, none =>
    .done (.error "unable to convert state into NetworkIOHandle's node resource pool format")
  | some r, some nics =>
    pressureRatio (fun dev => (nics.lookup dev).map fun nic => nic.ga) deviceRatio
      (r.entries.map fun e => (e.1, e.2))

end NetworkIo

namespace RDT

/-- `CanAdmitPod`; the request is the class of the pod. -/
def canAdmitPod (cache : Dict String Resource) (nodeName : String) (rawRequest : Option String) :
    Except String Unit :=
  match rawRequest with
  | none => .error "unable to convert state into RDTHandle's pod request format"
  | some class_ =>
    match cache.lookup nodeName with
    | none => .error s!"node {nodeName} not registered in cache"
    | some r =>
      if class_ = "" ∨ class_ ∈ r.rdtClassStatus then .ok ()
      else .error s!"there is no {class_} rdt class on {nodeName} node"

def nodePressureRatio (request : Option String) (classStatus : Option (Dict String ℚ)) :
    Except String ℚ :=
  match request with
  | none => .error "unable to convert state into RDTHandle's pod request format"
  | some class_ =>
    if class_ = "" then .ok 0
    else
      match classStatus with
      | none => .error "unable to convert state into RDTHandle's node resource class format"
      | some s =>
        match s.lookup class_ with
        | none => .error s!"unable to get class {class_}'s status"
        | some pressure => .ok (pressure / 100)

/-- The pressure of the class, in percent, is a percentage up to rounding. -/
def PressureOk (ps : Resource) (class_ : String) : Prop :=
  class_ = "" ∨ ∀ pressure ∈ ps.rdtClassStatus.lookup class_, -1 < pressure ∧ pressure < 101

end RDT

namespace RDTQuantity

/-- A quotient of floats; a division by zero is no number. -/
def quotient (x y : ℚ) : Option ℚ := if y = 0 then none else some (x / y)

/-- The ratio of a guaranteed pod, in percent of what the best-effort class has above its
baseline. -/
def freeRatio (n : NodeInfo) (be : ClassInfo) : Option ℚ := do
  let l3 ← quotient (be.requests.l3 - n.beL3CapacityBaseline)
    (n.l3CacheCapacity - n.beL3CapacityBaseline)
  let mb ← quotient (be.requests.mb - n.beMBCapacityBaseline)
    (n.mbCapacity - n.beMBCapacityBaseline)
  return (l3 + mb) / 2 * 100

def nodePressureRatio (request : Option IOResourceRequest) (nodeInfo : Option NodeInfo) :
    Outcome (Except String (Option ℚ)) :=
  match request, nodeInfo with
  | none, _ => .done (.error "unable to convert state into RDTQuantityHandle's pod request format")
  | some _, none =>
    .done (.error "unable to convert state into RDTQuantityHandle's node resource info format")
  | some requestInfo, some n => do
    let d ← Outcome.ofOption requestInfo.devRequest
    if d.devName = BE then return .ok (some n.beScore)
    else do
      let be ← Outcome.ofOption (n.classes.lookup BE)
      return .ok (freeRatio n be)

/-- The share of a capacity above its baseline that the best-effort class still has. -/
def freeShare (free capacity baseline : ℚ) : ℚ := (free - baseline) / (capacity - baseline)

/-- The score of a best-effort pod is a fraction up to rounding; for another pod almost nothing is
free. -/
def PressureOk (n : NodeInfo) (d : DeviceRequirement) : Prop :=
  if d.devName = BE then -1 < 100 * n.beScore ∧ 100 * n.beScore < 101
  else ∃ be ∈ n.classes.lookup BE,
    n.l3CacheCapacity ≠ n.beL3CapacityBaseline ∧ n.mbCapacity ≠ n.beMBCapacityBaseline ∧
      -1 < 5000 * (freeShare be.requests.l3 n.l3CacheCapacity n.beL3CapacityBaseline +
        freeShare be.requests.mb n.mbCapacity n.beMBCapacityBaseline) ∧
      5000 * (freeShare be.requests.l3 n.l3CacheCapacity n.beL3CapacityBaseline +
        freeShare be.requests.mb n.mbCapacity n.beMBCapacityBaseline) < 101

theorem quotient_eq_some {y z : ℚ} : quotient x y = some z ↔ y ≠ 0 ∧ z = x / y := by
  unfold quotient
  split_ifs with h
  · simp [h]
  · simp [h, eq_comm]

theorem freeRatio_eq_some {n : NodeInfo} {be : ClassInfo} {r : ℚ} :
    freeRatio n be = some r ↔
      n.l3CacheCapacity ≠ n.beL3CapacityBaseline ∧ n.mbCapacity ≠ n.beMBCapacityBaseline ∧
        r = (freeShare be.requests.l3 n.l3CacheCapacity n.beL3CapacityBaseline +
          freeShare be.requests.mb n.mbCapacity n.beMBCapacityBaseline) / 2 * 100 := by
  simp only [freeRatio, bind, bind_eq_some_iff, quotient_eq_some, sub_ne_zero, pure,
    some.injEq, freeShare]
  constructor
  · rintro ⟨l3, ⟨hl3, rfl⟩, mb, ⟨hmb, rfl⟩, rfl⟩
    exact ⟨hl3, hmb, rfl⟩
  · rintro ⟨hl3, hmb, rfl⟩
    exact ⟨_, ⟨hl3, rfl⟩, _, ⟨hmb, rfl⟩, rfl⟩

end RDTQuantity

/-! ## The score of the plugin -/

def RawRequest.asRdt : RawRequest → Option String
  | .rdt class_ => some class_
  | _ => none

def HandleKind.canAdmitPod (k : HandleKind) (caches : Caches) (nodeName : String)
    (request : RawRequest) : Outcome (Except String Unit) :=
  match k with
  | .blockIo => BlockIo.canAdmitPod caches.blockIo nodeName request.asBlockIo
  | .networkIo => NetworkIo.canAdmitPod caches.networkIo nodeName request.asNetworkIo
  | .rdt => .done (RDT.canAdmitPod caches.rdt nodeName request.asRdt)
  | .rdtQuantity => RDTQuantity.canAdmitPod caches.rdtQuantity nodeName request.asRdtQuantity

/-- The ratio of a handler; `none` is no number. -/
def HandleKind.nodePressureRatio (k : HandleKind) (caches : Caches) (nodeName : String)
    (request : RawRequest) : Outcome (Except String (Option ℚ)) :=
  match k with
  | .blockIo => do
    let r ← BlockIo.nodePressureRatio request.asBlockIo
      ((caches.blockIo.lookup nodeName).map fun ps => ps.info.disksStatus)
    return r.map some
  | .networkIo => do
    let r ← NetworkIo.nodePressureRatio request.asNetworkIo
      ((caches.networkIo.lookup nodeName).map fun ps => ps.info.nicsStatus)
    return r.map some
  | .rdt =>
    .done ((RDT.nodePressureRatio request.asRdt
      ((caches.rdt.lookup nodeName).map fun ps => ps.rdtClassStatus)).map some)
  | .rdtQuantity =>
    RDTQuantity.nodePressureRatio request.asRdtQuantity
      ((caches.rdtQuantity.lookup nodeName).map fun ps => ps.info)

inductive ScoreStrategyType where
  | leastAllocated
  | mostAllocated
  deriving DecidableEq

def maxNodeScore : Int := 100

def minNodeScore : Int := 0

def ScoreStrategyType.points : ScoreStrategyType → ℚ → Int
  | .mostAllocated, ratio => truncInt (ratio * maxNodeScore)
  | .leastAllocated, ratio => truncInt ((1 - ratio) * maxNodeScore)

/-- What `Filter` leaves in the cycle state for a handler. -/
structure StateData where
  request : RawRequest
  nodeSupportIOI : Bool

/-- `Score` of the two scorers. The plugin asks for the support of the node itself before; what it
does then is the same. -/
def ScoreStrategyType.score (strategy : ScoreStrategyType) (k : HandleKind) (caches : Caches)
    (nodeName : String) (sd : StateData) : Outcome (Except String (Option Int)) :=
  if sd.nodeSupportIOI = false then .done (.ok (some maxNodeScore))
  else do
    let r ← k.nodePressureRatio caches nodeName sd.request
    return r.map fun ratio => ratio.map strategy.points

def scoreLoop (strategy : ScoreStrategyType) (caches : Caches) (nodeName : String)
    (state : HandleKind → Except String StateData) :
    List HandleKind → Option Int → Outcome (Except String (Option Int))
  | [], score => .done (.ok score)
  | k :: ks, score =>
    match state k with
    | .error err => .done (.error err)
    | .ok sd => do
      match ← strategy.score k caches nodeName sd with
      | .error err => return .error err
      | .ok s => scoreLoop strategy caches nodeName state ks (Option.map₂ (· + ·) score s)

/-- A score, `none` for no number, and the message of an `Unschedulable` status. -/
structure NodeScore where
  score : Option Int
  err : Option String
  deriving DecidableEq

/-- `Score` of the plugin; `handles` is the order of the loop over the configured handlers. -/
def score (strategy : ScoreStrategyType) (handles : List HandleKind) (pod : Pod)
    (nodeName : String) (state : HandleKind → Except String StateData) (s : SchedState) :
    Outcome NodeScore :=
  if s.env.ctx.inNamespaceWhiteList pod.ns then .done ⟨some maxNodeScore, none⟩
  else do
    match ← scoreLoop strategy s.caches nodeName state handles (some 0) with
    | .error err => return ⟨some minNodeScore, some err⟩
    | .ok total =>
      if handles = [] then return ⟨some maxNodeScore, none⟩
      else return ⟨total.map fun n => n.tdiv handles.length, none⟩

inductive ResourceType where
  | blockIo
  | networkIo
  | rdt
  | rdtQuantity
  | all
  deriving DecidableEq

def getResources : ResourceType → List HandleKind
  | .blockIo => [.blockIo]
  | .networkIo => [.networkIo]
  | .rdt => [.rdt]
  | .rdtQuantity => [.rdtQuantity]
  | .all => [.blockIo, .networkIo, .rdt]

/-! ## Range -/

/-- The call returns a number between 0 and 100. -/
def InRange (o : Outcome NodeScore) : Prop :=
  ∃ n err, o = .done ⟨some n, err⟩ ∧ minNodeScore ≤ n ∧ n ≤ maxNodeScore

/-- The pod has passed the check of the handler on the node, if the node supports it. -/
def Passed (caches : Caches) (nodeName : String) (state : HandleKind → Except String StateData)
    (k : HandleKind) : Prop :=
  ∀ sd, state k = .ok sd → sd.nodeSupportIOI = true →
    k.canAdmitPod caches nodeName sd.request = .done (.ok ())

/-- The score of a pod that has passed is in range, whatever is configured. -/
def ScoresInRange (pod : Pod) (nodeName : String) (state : HandleKind → Except String StateData)
    (s : SchedState) : Prop :=
  ∀ (strategy : ScoreStrategyType) (rt : ResourceType) (handles : List HandleKind),
    handles.Perm (getResources rt) → (∀ k ∈ handles, Passed s.caches nodeName state k) →
      InRange (score strategy handles pod nodeName state s)

def RawRequest.NonNegative : RawRequest → Prop
  | .blockIo r => ∀ e ∈ r.resourceRequest.entries,
      Schedulable e.2.ioRequest ∧ NonNeg (demand e.2.ioRequest)
  | .networkIo r => ∀ e ∈ r.entries, Schedulable e.2 ∧ NonNeg (demand e.2)
  | _ => True

/-- The pressure a handler finds for the request on the node is small enough; disks and cards need
no condition. -/
def PressureOk (caches : Caches) (nodeName : String) : HandleKind → RawRequest → Prop
  | .rdt, .rdt class_ => ∀ ps ∈ caches.rdt.lookup nodeName, RDT.PressureOk ps class_
  | .rdtQuantity, .rdtQuantity r => ∀ ps ∈ caches.rdtQuantity.lookup nodeName,
      ∀ d ∈ r.devRequest, RDTQuantity.PressureOk ps.info d
  | _, _ => True

/-- Every handler that accepts the pod on a node it supports finds a pressure that is small
enough. -/
def Bounded (pod : Pod) (nodeName : String) (state : HandleKind → Except String StateData)
    (s : SchedState) : Prop :=
  s.env.ctx.inNamespaceWhiteList pod.ns = false → ∀ k sd, state k = .ok sd →
    sd.nodeSupportIOI = true → k.canAdmitPod s.caches nodeName sd.request = .done (.ok ()) →
      PressureOk s.caches nodeName k sd.request

/-! ## Points -/

theorem truncInt_neg (x : ℚ) : truncInt (-x) = -truncInt x := by
  simp [truncInt, Int.neg_tdiv]

theorem truncInt_eq_floor (h : 0 ≤ x) : truncInt x = ⌊x⌋ := by
  rw [truncInt, Int.tdiv_eq_ediv_of_nonneg (Rat.num_nonneg.mpr h), ← Rat.floor_def]
  rfl

theorem truncInt_le_iff {n : Int} (hn : 0 ≤ n) : truncInt x ≤ n ↔ x < n + 1 := by
  rcases le_total 0 x with hx | hx
  · rw [truncInt_eq_floor hx, Int.floor_le_iff]
  have hneg : 0 ≤ truncInt (-x) := truncInt_nonneg (neg_nonneg.mpr hx)
  rw [truncInt_neg] at hneg
  have hn' : (0 : ℚ) ≤ n := by exact_mod_cast hn
  exact iff_of_true (by omega) (by linarith)

theorem truncInt_nonneg_iff : 0 ≤ truncInt x ↔ -1 < x := by
  have h := truncInt_le_iff (x := -x) le_rfl
  rw [truncInt_neg] at h
  constructor
  · intro hx
    have := h.mp (by omega)
    push_cast at this
    linarith
  · intro hx
    have := h.mpr (by push_cast; linarith)
    omega

theorem points_inRange (strategy : ScoreStrategyType) (r : ℚ) :
    minNodeScore ≤ strategy.points r ∧ strategy.points r ≤ maxNodeScore ↔
      -1 < 100 * r ∧ 100 * r < 101 := by
  have hmax : (0 : Int) ≤ maxNodeScore := by decide
  cases strategy with
  | mostAllocated | leastAllocated =>
    simp only [minNodeScore, ScoreStrategyType.points, truncInt_nonneg_iff, truncInt_le_iff hmax]
    simp only [maxNodeScore]
    push_cast
    constructor <;> rintro ⟨h1, h2⟩ <;> constructor <;> linarith

/-! ## One handler -/

section Handlers

variable {caches : Caches} {nodeName : String} {request : RawRequest} {k : HandleKind}
  {state : HandleKind → Except String StateData} {strategy : ScoreStrategyType} {pod : Pod}
  {s : SchedState}

/-- The ratio is a number that gives points in range. -/
def SmallRatio (o : Outcome (Except String (Option ℚ))) : Prop :=
  ∃ r, o = .done (.ok (some r)) ∧ -1 < 100 * r ∧ 100 * r < 101

theorem smallRatio_of_mem {o : Outcome (Except String ℚ)}
    (h : ∃ r, o = .done (.ok r) ∧ 0 ≤ r ∧ r ≤ 1) :
    SmallRatio (do let r ← o; return r.map some) := by
  obtain ⟨r, rfl, h0, h1⟩ := h
  exact ⟨r, rfl, by linarith, by linarith⟩

theorem blockIo_small (hn : request.NonNegative)
    (h : HandleKind.blockIo.canAdmitPod caches nodeName request = .done (.ok ())) :
    SmallRatio (HandleKind.blockIo.nodePressureRatio caches nodeName request) := by
  cases request with
  | blockIo r =>
    apply smallRatio_of_mem
    simp only [HandleKind.canAdmitPod, RawRequest.asBlockIo, BlockIo.canAdmitPod] at h
    cases hps : caches.blockIo.lookup nodeName with
    | none => simp [hps] at h
    | some ps =>
      simp only [hps] at h
      refine pressureRatio_mem fun x hx => ?_
      obtain ⟨e, he, rfl⟩ := mem_map.mp hx
      obtain ⟨disk, hdisk, hadm, -⟩ := BlockIo.admitAll_ok h e he
      exact bearable_of_admitted BlockIo.deviceRatio_mem (by simp [hdisk]) (hn e he).1 (hn e he).2
        hadm
  | nil | networkIo | rdt | rdtQuantity => cases h

theorem networkIo_small (hn : request.NonNegative)
    (h : HandleKind.networkIo.canAdmitPod caches nodeName request = .done (.ok ())) :
    SmallRatio (HandleKind.networkIo.nodePressureRatio caches nodeName request) := by
  cases request with
  | networkIo r =>
    apply smallRatio_of_mem
    simp only [HandleKind.canAdmitPod, RawRequest.asNetworkIo, NetworkIo.canAdmitPod] at h
    cases hps : caches.networkIo.lookup nodeName with
    | none => simp [hps] at h
    | some ps =>
      simp only [hps] at h
      refine pressureRatio_mem fun x hx => ?_
      obtain ⟨e, he, rfl⟩ := mem_map.mp hx
      obtain ⟨nic, hnic, hadm⟩ := NetworkIo.admitAll_ok h e he
      refine bearable_of_admitted ?_ (by simp [hnic]) (hn e he).1 (hn e he).2 hadm
      exact fun ga q hi ho hin hout _ => NetworkIo.deviceRatio_mem ga q hi ho hin hout
  | nil | blockIo | rdt | rdtQuantity => cases h

theorem rdt_accepted (h : HandleKind.rdt.canAdmitPod caches nodeName request = .done (.ok ())) :
    ∃ class_ ps, request = .rdt class_ ∧ caches.rdt.lookup nodeName = some ps ∧
      (class_ = "" ∨ ∃ pressure, ps.rdtClassStatus.lookup class_ = some pressure) := by
  cases request with
  | rdt class_ =>
    simp only [HandleKind.canAdmitPod, RawRequest.asRdt, RDT.canAdmitPod, Outcome.done.injEq] at h
    cases hps : caches.rdt.lookup nodeName with
    | none => simp [hps] at h
    | some ps =>
      simp only [hps] at h
      split_ifs at h with hclass
      exact ⟨class_, ps, rfl, rfl, hclass.imp_right Finmap.mem_iff.mp⟩
  | nil | blockIo | networkIo | rdtQuantity => cases h

theorem rdt_ratio {class_ : String} {ps : RDT.Resource} {pressure : ℚ}
    (hps : caches.rdt.lookup nodeName = some ps) (hclass : class_ ≠ "")
    (hp : ps.rdtClassStatus.lookup class_ = some pressure) :
    HandleKind.rdt.nodePressureRatio caches nodeName (.rdt class_) =
      .done (.ok (some (pressure / 100))) := by
  simp [HandleKind.nodePressureRatio, RDT.nodePressureRatio, RawRequest.asRdt, hps, hclass, hp,
    Except.map]

theorem rdt_small_iff (h : HandleKind.rdt.canAdmitPod caches nodeName request = .done (.ok ())) :
    PressureOk caches nodeName .rdt request ↔
      SmallRatio (HandleKind.rdt.nodePressureRatio caches nodeName request) := by
  obtain ⟨class_, ps, rfl, hps, hclass⟩ := rdt_accepted h
  by_cases hempty : class_ = ""
  · subst hempty
    refine iff_of_true (fun ps _ => .inl rfl) ⟨0, rfl, by norm_num, by norm_num⟩
  obtain ⟨pressure, hp⟩ := hclass.resolve_left hempty
  simp only [PressureOk, RDT.PressureOk, hps, mem_def, some.injEq, forall_eq',
    hempty, false_or, hp, SmallRatio, rdt_ratio hps hempty hp, Outcome.done.injEq,
    Except.ok.injEq, exists_eq_left']
  constructor <;> rintro ⟨h1, h2⟩ <;> constructor <;> linarith

theorem rdtQuantity_accepted
    (h : HandleKind.rdtQuantity.canAdmitPod caches nodeName request = .done (.ok ())) :
    ∃ r ps d, request = .rdtQuantity r ∧ caches.rdtQuantity.lookup nodeName = some ps ∧
      r.devRequest = some d := by
  cases request with
  | rdtQuantity r =>
    simp only [HandleKind.canAdmitPod, RawRequest.asRdtQuantity, RDTQuantity.canAdmitPod] at h
    cases hps : caches.rdtQuantity.lookup nodeName with
    | none => simp [hps] at h
    | some ps =>
      simp only [hps, Outcome.bind_eq_done, Outcome.ofOption_eq_done] at h
      obtain ⟨d, hd, -⟩ := h
      exact ⟨r, ps, d, rfl, rfl, hd⟩
  | nil | blockIo | networkIo | rdt => cases h

theorem rdtQuantity_ratio {r : IOResourceRequest} {ps : RDTQuantity.Resource}
    {d : DeviceRequirement} (hps : caches.rdtQuantity.lookup nodeName = some ps)
    (hd : r.devRequest = some d) :
    HandleKind.rdtQuantity.nodePressureRatio caches nodeName (.rdtQuantity r) =
      if d.devName = RDTQuantity.BE then .done (.ok (some ps.info.beScore))
      else do
        let be ← Outcome.ofOption (ps.info.classes.lookup RDTQuantity.BE)
        return .ok (RDTQuantity.freeRatio ps.info be) := by
  simp [HandleKind.nodePressureRatio, RDTQuantity.nodePressureRatio, RawRequest.asRdtQuantity, hps,
    hd]

theorem rdtQuantity_small_iff
    (h : HandleKind.rdtQuantity.canAdmitPod caches nodeName request = .done (.ok ())) :
    PressureOk caches nodeName .rdtQuantity request ↔
      SmallRatio (HandleKind.rdtQuantity.nodePressureRatio caches nodeName request) := by
  obtain ⟨r, ps, d, rfl, hps, hd⟩ := rdtQuantity_accepted h
  rw [rdtQuantity_ratio hps hd]
  simp only [PressureOk, hps, hd, mem_def, some.injEq, forall_eq',
    RDTQuantity.PressureOk, SmallRatio]
  split_ifs with hbe
  · simp only [Outcome.done.injEq, Except.ok.injEq, some.injEq, exists_eq_left']
  simp only [Outcome.bind_eq_done, Outcome.ofOption_eq_done, Outcome.pure_eq,
    Outcome.done.injEq, Except.ok.injEq, RDTQuantity.freeRatio_eq_some]
  constructor
  · rintro ⟨be, hbe, hl3, hmb, h1, h2⟩
    exact ⟨_, ⟨be, hbe, hl3, hmb, rfl⟩, by linarith, by linarith⟩
  · rintro ⟨_, ⟨be, hbe, hl3, hmb, rfl⟩, h1, h2⟩
    exact ⟨be, hbe, hl3, hmb, by linarith, by linarith⟩

section

variable (hn : request.NonNegative) (h : k.canAdmitPod caches nodeName request = .done (.ok ()))
include hn h

theorem small_iff :
    PressureOk caches nodeName k request ↔
      SmallRatio (k.nodePressureRatio caches nodeName request) := by
  cases k with
  | blockIo => exact iff_of_true (by simp [PressureOk]) (blockIo_small hn h)
  | networkIo => exact iff_of_true (by simp [PressureOk]) (networkIo_small hn h)
  | rdt => exact rdt_small_iff h
  | rdtQuantity => exact rdtQuantity_small_iff h

theorem nodePressureRatio_ne_error (err : String) :
    k.nodePressureRatio caches nodeName request ≠ .done (.error err) := by
  intro herr
  cases k with
  | blockIo =>
    obtain ⟨r, hr, -⟩ := blockIo_small hn h
    rw [hr] at herr
    cases herr
  | networkIo =>
    obtain ⟨r, hr, -⟩ := networkIo_small hn h
    rw [hr] at herr
    cases herr
  | rdt =>
    obtain ⟨class_, ps, rfl, hps, hclass⟩ := rdt_accepted h
    by_cases hempty : class_ = ""
    · subst hempty
      cases herr
    obtain ⟨pressure, hp⟩ := hclass.resolve_left hempty
    rw [rdt_ratio hps hempty hp] at herr
    cases herr
  | rdtQuantity =>
    obtain ⟨r, ps, d, rfl, hps, hd⟩ := rdtQuantity_accepted h
    rw [rdtQuantity_ratio hps hd] at herr
    split_ifs at herr
    · cases herr
    · obtain ⟨be, -, hok⟩ := Outcome.bind_eq_done.mp herr
      cases hok

end

/-! ## All handlers -/

variable {sd : StateData}

/-- The points of a handler that is supported are those of its ratio. -/
theorem score_supported (hs : sd.nodeSupportIOI = true) :
    strategy.score k caches nodeName sd =
      (do let r ← k.nodePressureRatio caches nodeName sd.request
          return r.map fun ratio => ratio.map strategy.points) := by
  simp [ScoreStrategyType.score, hs]

/-- The cycle state of the handler cannot be read, or it gives points in range. -/
def GoodPoints (strategy : ScoreStrategyType) (caches : Caches) (nodeName : String)
    (state : HandleKind → Except String StateData) (k : HandleKind) : Prop :=
  (∃ err, state k = .error err) ∨ ∃ sd n, state k = .ok sd ∧
    strategy.score k caches nodeName sd = .done (.ok (some n)) ∧ minNodeScore ≤ n ∧ n ≤ maxNodeScore

theorem goodPoints_of_small (hstate : ∀ sd, state k = .ok sd → sd.nodeSupportIOI = true →
      SmallRatio (k.nodePressureRatio caches nodeName sd.request)) :
    GoodPoints strategy caches nodeName state k := by
  cases hsd : state k with
  | error err => exact .inl ⟨err, hsd⟩
  | ok sd =>
    refine .inr ⟨sd, ?_⟩
    cases hs : sd.nodeSupportIOI with
    | false => exact ⟨maxNodeScore, hsd, by simp [ScoreStrategyType.score, hs], by decide, le_rfl⟩
    | true =>
      obtain ⟨r, hr, hbounds⟩ := hstate sd hsd hs
      refine ⟨strategy.points r, hsd, ?_, (points_inRange strategy r).mpr hbounds⟩
      simp [score_supported hs, hr, Except.map]

/-- The loop stops at a handler without cycle state, or adds points in range. -/
theorem scoreLoop_inRange {ks : List HandleKind}
    (h : ∀ k ∈ ks, GoodPoints strategy caches nodeName state k) :
    ∀ total : Int, (∃ err, scoreLoop strategy caches nodeName state ks (some total) =
        .done (.error err)) ∨
      ∃ n, scoreLoop strategy caches nodeName state ks (some total) = .done (.ok (some n)) ∧
        total ≤ n ∧ n ≤ total + ks.length * maxNodeScore := by
  induction ks with
  | nil => exact fun total => .inr ⟨total, rfl, le_rfl, by simp⟩
  | cons k ks ih =>
    intro total
    have hks := ih fun j hj => h j (mem_cons_of_mem _ hj)
    rcases h k mem_cons_self with ⟨err, herr⟩ | ⟨sd, n, hsd, hn, h0, h1⟩
    · exact .inl ⟨err, by simp [scoreLoop, herr]⟩
    have hstep : scoreLoop strategy caches nodeName state (k :: ks) (some total) =
        scoreLoop strategy caches nodeName state ks (some (total + n)) := by
      simp [scoreLoop, hsd, hn]
    rw [hstep]
    refine (hks (total + n)).imp_right ?_
    rintro ⟨m, hm, hle, hge⟩
    simp only [minNodeScore] at h0
    refine ⟨m, hm, by omega, ?_⟩
    push_cast [length_cons]
    linarith

theorem tdiv_inRange {n : Int} {len : Nat} (hlen : 0 < len) (h0 : 0 ≤ n)
    (h1 : n ≤ len * maxNodeScore) :
    minNodeScore ≤ n.tdiv len ∧ n.tdiv len ≤ maxNodeScore := by
  have hpos : (0 : Int) < len := by exact_mod_cast hlen
  refine ⟨Int.tdiv_nonneg h0 hpos.le, ?_⟩
  rw [Int.tdiv_eq_ediv_of_nonneg h0]
  exact Int.ediv_le_of_le_mul hpos (by linarith)

theorem score_inRange {handles : List HandleKind}
    (h : ∀ k ∈ handles, GoodPoints strategy s.caches nodeName state k) :
    InRange (score strategy handles pod nodeName state s) := by
  by_cases hwhite : s.env.ctx.inNamespaceWhiteList pod.ns = true
  · exact ⟨maxNodeScore, none, by simp [score, hwhite], by decide, le_rfl⟩
  simp only [score, if_neg hwhite]
  rcases scoreLoop_inRange h 0 with ⟨err, herr⟩ | ⟨n, hn, h0, h1⟩
  · exact ⟨minNodeScore, some err, by simp [herr], le_rfl, by decide⟩
  simp only [hn, Outcome.done_bind]
  split_ifs with hnil
  · exact ⟨maxNodeScore, none, rfl, by decide, le_rfl⟩
  · rw [zero_add] at h1
    exact ⟨_, none, rfl, tdiv_inRange (length_pos_iff.mpr hnil) h0 h1⟩

section

variable (hwhite : s.env.ctx.inNamespaceWhiteList pod.ns = false) (hsd : state k = .ok sd)
  (hs : sd.nodeSupportIOI = true)
include hwhite hsd hs

theorem score_single :
    score strategy [k] pod nodeName state s = do
      match ← k.nodePressureRatio s.caches nodeName sd.request with
      | .error err => return ⟨some minNodeScore, some err⟩
      | .ok ratio => return ⟨ratio.map strategy.points, none⟩ := by
  simp only [score, hwhite, Bool.false_eq_true, if_false, scoreLoop, hsd, score_supported hs]
  rcases k.nodePressureRatio s.caches nodeName sd.request with (_ | _ | r) | _ | _ <;>
    simp [Except.map]

theorem small_of_inRange
    (hne : ∀ err, k.nodePressureRatio s.caches nodeName sd.request ≠ .done (.error err))
    (h : InRange (score strategy [k] pod nodeName state s)) :
    SmallRatio (k.nodePressureRatio s.caches nodeName sd.request) := by
  obtain ⟨n, err, heq, hrange⟩ := h
  rw [score_single hwhite hsd hs, Outcome.bind_eq_done] at heq
  obtain ⟨r, hr, heq⟩ := heq
  cases r with
  | error e => exact absurd hr (hne e)
  | ok ratio =>
    simp only [Outcome.pure_eq, Outcome.done.injEq, NodeScore.mk.injEq] at heq
    obtain ⟨x, rfl, rfl⟩ := map_eq_some_iff.mp heq.1
    exact ⟨x, hr, (points_inRange strategy x).mp hrange⟩

end

theorem getResources_single : ∀ k : HandleKind, ∃ rt, getResources rt = [k]
  | .blockIo => ⟨.blockIo, rfl⟩
  | .networkIo => ⟨.networkIo, rfl⟩
  | .rdt => ⟨.rdt, rfl⟩
  | .rdtQuantity => ⟨.rdtQuantity, rfl⟩

/-- The score of an accepted pod is in range under every configuration exactly when the pressures of
the two RDT handlers are small enough. -/
theorem scoresInRange_iff (hreq : ∀ k sd, state k = .ok sd → sd.request.NonNegative) :
    ScoresInRange pod nodeName state s ↔ Bounded pod nodeName state s := by
  constructor
  · intro h hwhite k sd hsd hs hacc
    obtain ⟨rt, hrt⟩ := getResources_single k
    have hpassed : ∀ j ∈ [k], Passed s.caches nodeName state j := by
      intro j hj sd' hsd' _
      rw [mem_singleton.mp hj] at hsd' ⊢
      rw [hsd] at hsd'
      cases hsd'
      exact hacc
    have hrange := h .mostAllocated rt [k] (hrt ▸ Perm.refl _) hpassed
    refine (small_iff (hreq k sd hsd) hacc).mpr (small_of_inRange hwhite hsd hs ?_ hrange)
    exact nodePressureRatio_ne_error (hreq k sd hsd) hacc
  · intro h strategy rt handles _ hpassed
    by_cases hwhite : s.env.ctx.inNamespaceWhiteList pod.ns = false
    · refine score_inRange fun k hk => goodPoints_of_small fun sd hsd hs => ?_
      have hacc := hpassed k hk sd hsd hs
      exact (small_iff (hreq k sd hsd) hacc).mp (h hwhite k sd hsd hs hacc)
    · exact ⟨maxNodeScore, none, by simp [score, hwhite], by decide, le_rfl⟩

end Handlers

/-! ## Two nodes -/

/-- A node with a disk and a class `gold` under a pressure of 40 percent. -/
def goldState : SchedState :=
  { caches := {
      blockIo := Finmap.singleton "n"
        (BlockIo.sdaNode.setDisks
          (BlockIo.initDisks BlockIo.sdaConfig ∅ BlockIo.sdaNode.info.disksStatus))
      networkIo := ∅
      rdt := Finmap.singleton "n" ⟨"n", Finmap.singleton "gold" 40⟩
      rdtQuantity := ∅ }
    env := BlockIo.sdaEnv }

/-- A pod with a guaranteed disk bandwidth in the class; the node has no support for network I/O. -/
def goldCycle : HandleKind → Except String StateData
  | .blockIo => .ok ⟨.blockIo (BlockIo.sdaRequest .gaIndex), true⟩
  | .networkIo => .ok ⟨.nil, false⟩
  | .rdt => .ok ⟨.rdt "gold", true⟩
  | .rdtQuantity => .error "not found"

theorem goldCycle_nonNegative (k : HandleKind) (sd : StateData) (h : goldCycle k = .ok sd) :
    sd.request.NonNegative := by
  cases k with
  | blockIo =>
    cases h
    have hreq : ∀ e ∈ (BlockIo.sdaRequest .gaIndex).resourceRequest.entries,
        Schedulable e.2.ioRequest ∧ NonNeg (demand e.2.ioRequest) := by decide +kernel
    exact hreq
  | networkIo | rdt => cases h; trivial
  | rdtQuantity => cases h

theorem scoresInRange_iff_gold :
    ScoresInRange (BlockIo.sdaPod "a") "n" goldCycle goldState ∧
      goldState.caches.rdt.lookup "n" = some ⟨"n", Finmap.singleton "gold" 40⟩ := by
  refine ⟨(scoresInRange_iff goldCycle_nonNegative).mpr ?_, by decide +kernel⟩
  intro _ k sd hsd hs _
  cases k with
  | blockIo | networkIo => simp [PressureOk]
  | rdt =>
    cases hsd
    intro ps hps
    have hlookup : goldState.caches.rdt.lookup "n" = some ⟨"n", Finmap.singleton "gold" 40⟩ := by
      decide +kernel
    rw [hlookup, mem_some] at hps
    subst hps
    refine .inr fun pressure hp => ?_
    rw [Finmap.lookup_singleton_eq, mem_some] at hp
    subst hp
    norm_num
  | rdtQuantity => cases hsd

/-- The score is in range on every node whose entry in the RDT-quantity cache comes from a run of
the handler. -/
def AlwaysInRange : Prop :=
  ∀ (nodeName : String) (rc : ResourceConfigSpec) (es : List RDTQuantity.Event)
    (node : RDTQuantity.Node) (pod : Pod) (state : HandleKind → Except String StateData)
    (s : SchedState), run RDTQuantity.step (RDTQuantity.start nodeName rc) es = some node →
      s.caches.rdtQuantity = Finmap.singleton nodeName node.ps →
      (∀ k sd, state k = .ok sd → sd.request.NonNegative) → ScoresInRange pod nodeName state s

/-- A node that was just registered; its best-effort class has a score of 100, not of 1. -/
def freshState : SchedState :=
  { caches := {
      blockIo := ∅
      networkIo := ∅
      rdt := ∅
      rdtQuantity := Finmap.singleton "n" (RDTQuantity.start "n" BlockIo.sdaConfig).ps }
    env := BlockIo.sdaEnv }

def beCycle : HandleKind → Except String StateData
  | .rdtQuantity =>
    .ok ⟨.rdtQuantity (RDTQuantity.requestOf RDTQuantity.BE ⟨⟨0, 0⟩, ⟨0, 0⟩⟩), true⟩
  | _ => .error "not found"

theorem not_alwaysInRange : ¬ AlwaysInRange := by
  intro h
  have hnonneg : ∀ k sd, beCycle k = .ok sd → sd.request.NonNegative := by
    intro k sd hsd
    cases k <;> cases hsd
    trivial
  have hpassed : ∀ k ∈ [HandleKind.rdtQuantity], Passed freshState.caches "n" beCycle k := by
    intro k hk sd hsd _
    rw [mem_singleton.mp hk] at hsd ⊢
    cases hsd
    decide +kernel
  obtain ⟨n, err, hscore, -, hle⟩ := h "n" BlockIo.sdaConfig [] _ (BlockIo.sdaPod "a") beCycle
    freshState rfl rfl hnonneg .mostAllocated .rdtQuantity _ (Perm.refl _) hpassed
  have hpoints : score .mostAllocated [.rdtQuantity] (BlockIo.sdaPod "a") "n" beCycle freshState =
      .done ⟨some 10000, none⟩ := by decide +kernel
  rw [getResources, hpoints] at hscore
  cases hscore
  exact absurd hle (by decide)

end IOIsolation.Sched
