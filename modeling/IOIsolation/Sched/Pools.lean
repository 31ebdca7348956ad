import IOIsolation.Types
import IOIsolation.Lib.Outcome
import IOIsolation.Lib.Rounding
import Mathlib.Algebra.Order.Field.Rat
import Mathlib.Tactic.Ring
import Mathlib.Tactic.Linarith
import Mathlib.Algebra.Group.Prod
import Mathlib.Data.Rat.Floor

/-!
# Sched.Pools

The bandwidth pools of one device, disk or network card, in the scheduler's cache: what a pod's
request does to them (`charge`, `refund`), how they are computed from scratch from a list of
reserved pods (`initDevice`), when a request fits (`admitDevice`), and how a reported status
overwrites them (`applyStatus`). Both I/O handlers use the same code on their devices; it is
written once here, with the I/O type as a parameter.

The deltas are elements of the group `Demand`, which acts on pools by `take`:

* `charge_done`, `refund_done` — a request takes its demand, and gives it back.
* `initDevice_eq_take`         — computing from scratch takes the sum of all demands.
* `computed_eq_podDemand`      — for a well-formed entry both loops see the same demand.
-/

namespace IOIsolation.Sched

open Lib Outcome

/-- The three ways the `AddPod` of a handler returns: a request of a foreign type, an error, the requests to
reserve. -/
inductive AddResult where
  | mismatch (err : String)
  | failed (err : String)
  | added (reqs : List IOResourceRequest)
  deriving DecidableEq

structure IOPoolStatus where
  total : ℚ
  inBps : ℚ
  outBps : ℚ
  underPressure : Bool
  num : Int
  deriving DecidableEq

def IOPoolStatus.zero : IOPoolStatus := ⟨0, 0, 0, false, 0⟩

structure Pools where
  ga : IOPoolStatus
  be : IOPoolStatus
  deriving DecidableEq

namespace Pools

def charge [Rounding] (p : Pools) (r : IOResourceRequest) : Outcome Pools :=
  match r.workloadType with
  | .gaIndex => do
    let d ← Outcome.ofOption r.devRequest
    let q ← Outcome.ofOption d.request
    return { p with ga := { p.ga with
      inBps := fl (p.ga.inBps - q.inbps)
      outBps := fl (p.ga.outBps - q.outbps)
      total := fl (p.ga.total - fl (q.inbps + q.outbps)) } }
  | .beIndex => return { p with be := { p.be with num := p.be.num + 1 } }
  | _ => return p

def refund [Rounding] (p : Pools) (r : IOResourceRequest) : Outcome Pools :=
  match r.workloadType with
  | .gaIndex => do
    let d ← Outcome.ofOption r.devRequest
    let q ← Outcome.ofOption d.request
    return { p with ga := { p.ga with
      inBps := fl (p.ga.inBps + q.inbps)
      outBps := fl (p.ga.outBps + q.outbps)
      total := fl (p.ga.total + fl (q.inbps + q.outbps)) } }
  | .beIndex =>
    return { p with be := { p.be with
      num := if p.be.num - 1 < 0 then 0 else p.be.num - 1 } }
  | _ => return p

end Pools

/-! ## Computing from scratch -/

/-- Go's conversion of a float to an integer drops the fraction. -/
def truncInt (x : ℚ) : Int := x.num.tdiv x.den

@[simp] theorem truncInt_intCast (n : Int) : truncInt n = n := by simp [truncInt]

/-- `pct * int(capacity) / 100` in Go's integer arithmetic. -/
def poolShare (pct : Int) (capacity : ℚ) : Int := (pct * truncInt capacity).tdiv 100

/-- The loop of `calculateReservedBw`: the reserved read and write bandwidth of a pod on one
device, and whether it is a best-effort pod there. -/
def calculateReservedBw (t : IOType) (dev : String) :
    List IOResourceRequest → ℚ → ℚ → ℚ × ℚ × Bool
  | [], i, o => (i, o, false)
  | r :: rs, i, o =>
    if r.ioType ≠ t then calculateReservedBw t dev rs i o
    else
      match r.devRequest with
      | none => calculateReservedBw t dev rs i o
      | some d =>
        if d.devName ≠ dev then calculateReservedBw t dev rs i o
        else if r.workloadType = .beIndex then (i, o, true)
        else
          match d.request with
          | some q => calculateReservedBw t dev rs (i + q.inbps) (o + q.outbps)
          | none => calculateReservedBw t dev rs i o

/-- What a device's pools lose: read and write bandwidth of the guaranteed pool, and places in
the best-effort pool. -/
abbrev Demand : Type := ℚ × ℚ × Int

/-- What `calculateReservedBw` finds, as a demand. -/
def computed (t : IOType) (dev : String) (e : PodRequest) : Demand :=
  match calculateReservedBw t dev e.request 0 0 with
  | (i, o, isBe) => (i, o, if isBe then 1 else 0)

/-- `InitNodeStatus` on one device; `p` are the pools it finds in the cache. -/
def initDevice (t : IOType) (bePool : Int) (dev : String) (info : Device)
    (pods : Dict String PodRequest) (p : Pools) : Pools :=
  let gaIn := Dict.total (fun _ e => (computed t dev e).1) pods
  let gaOut := Dict.total (fun _ e => (computed t dev e).2.1) pods
  let beNum := Dict.total (fun _ e => (computed t dev e).2.2) pods
  { ga := {
      inBps := poolShare (100 - bePool) info.capacityIn - gaIn
      outBps := poolShare (100 - bePool) info.capacityOut - gaOut
      total := poolShare (100 - bePool) info.capacityTotal - gaIn - gaOut
      underPressure := false
      num := 0 }
    be := { p.be with num := beNum } }

/-- The best-effort pool `AddCacheNodeInfo` gives a device. -/
def beShare (bePool : Int) (info : Device) : IOPoolStatus :=
  { total := poolShare bePool info.capacityTotal
    inBps := poolShare bePool info.capacityIn
    outBps := poolShare bePool info.capacityOut
    underPressure := false
    num := 0 }

/-! ## Admission and status -/

/-- The checks of `CanAdmitPod` on one device; `bem` is the minimum each best-effort pod keeps,
`name` the handler in the messages. -/
def admitDevice [Rounding] (name nodeName : String) (p : Pools) (bem : IOPoolStatus)
    (r : IOResourceRequest) : Outcome (Except String Unit) :=
  match r.workloadType with
  | .gaIndex =>
    if p.ga.underPressure then
      return .error s!"device on Node {nodeName} is under {name} pressure"
    else do
      let d ← Outcome.ofOption r.devRequest
      let q ← Outcome.ofOption d.request
      if fl (q.inbps + q.outbps) > p.ga.total then
        return .error s!"insufficient {name} total IO resource on node {nodeName}"
      else if q.inbps > p.ga.inBps then
        return .error s!"insufficient {name} in IO resource on node {nodeName}"
      else if q.outbps > p.ga.outBps then
        return .error s!"insufficient {name} out IO resource on node {nodeName}"
      else return .ok ()
  | .beIndex =>
    if p.be.underPressure then
      return .error s!"device on Node {nodeName} is under {name} pressure"
    else if fl (p.be.total / (p.be.num + 1)) ≤ bem.total then
      return .error s!"insufficient {name} total BE IO resource on node {nodeName}"
    else if fl (p.be.inBps / (p.be.num + 1)) ≤ bem.inBps then
      return .error s!"insufficient {name} in BE IO resource on node {nodeName}"
    else if fl (p.be.outBps / (p.be.num + 1)) ≤ bem.outBps then
      return .error s!"insufficient {name} out BE IO resource on node {nodeName}"
    else return .ok ()
  | _ => return .ok ()

/-- Pressures within a billionth of zero count as no pressure. -/
def isUnderPressure (p : ℚ) : Bool := !decide (|p| ≤ 1 / 1000000000)

/-- `calculateDiskStatus` and `calculateNetworkStatus`: the pools a status reports for a
device, or `none` where the reported bandwidth is the negative placeholder. A device the status
does not list gets empty pools. -/
def calculateStatus (bw : Dict String (Dict WorkloadQoSType IOStatus)) (dev : String) :
    Option (IOPoolStatus × IOPoolStatus) :=
  match bw.lookup dev with
  | none => some (.zero, .zero)
  | some info =>
    let be : IOPoolStatus :=
      match info.lookup .be with
      | some r => { IOPoolStatus.zero with underPressure := isUnderPressure r.pressure }
      | none => .zero
    match info.lookup .ga with
    | some v =>
      if v.inBps < 0 then none
      else some ({
        total := v.total
        inBps := v.inBps
        outBps := v.outBps
        underPressure := isUnderPressure v.pressure
        num := 0 }, be)
    | none => some (.zero, be)

def applyStatus (bw : Dict String (Dict WorkloadQoSType IOStatus)) (dev : String) (p : Pools) :
    Pools :=
  match calculateStatus bw dev with
  | some (ga, be) => { ga := ga, be := { p.be with underPressure := be.underPressure } }
  | none => p

/-! ## Demands -/

namespace Pools

/-- The pools after `d` more is taken from them. -/
def take (p : Pools) (d : Demand) : Pools :=
  { ga := { p.ga with
      inBps := p.ga.inBps - d.1
      outBps := p.ga.outBps - d.2.1
      total := p.ga.total - (d.1 + d.2.1) }
    be := { p.be with num := p.be.num + d.2.2 } }

@[simp] theorem take_zero (p : Pools) : p.take 0 = p := by
  simp [take]

theorem take_take (p : Pools) (a b : Demand) : (p.take a).take b = p.take (a + b) := by
  simp only [take, Prod.fst_add, Prod.snd_add, Pools.mk.injEq, IOPoolStatus.mk.injEq, true_and,
    and_true]
  refine ⟨⟨?_, ?_, ?_⟩, ?_⟩ <;> ring

end Pools

/-- What a request takes from the device it names. -/
def demand (r : IOResourceRequest) : Demand :=
  match r.workloadType, r.devRequest with
  | .gaIndex, some d =>
    match d.request with
    | some q => (q.inbps, q.outbps, 0)
    | none => 0
  | .beIndex, _ => (0, 0, 1)
  | _, _ => 0

variable {r : IOResourceRequest} {p : Pools} {dev uid : String} {t : IOType}
  {rs : List IOResourceRequest} {e : PodRequest} {pods : Dict String PodRequest}

theorem demand_be_of_ne (h : r.workloadType ≠ .beIndex) : (demand r).2.2 = 0 := by
  unfold demand
  split
  · split <;> rfl
  · contradiction
  · rfl

theorem demand_be_nonneg (r : IOResourceRequest) : 0 ≤ (demand r).2.2 := by
  by_cases h : r.workloadType = .beIndex
  · simp [demand, h]
  · rw [demand_be_of_ne h]

variable {p' : Pools} {after before : List IOResourceRequest} {x capacity : ℚ} {pct : Int}

theorem charge_done (h : p.charge r = .done p') : p' = p.take (demand r) := by
  unfold Pools.charge at h
  unfold demand
  cases hw : r.workloadType with
  | gaIndex =>
    simp only [hw, bind_eq_done, ofOption_eq_done] at h
    obtain ⟨d, hd, q, hq, h⟩ := h
    cases h
    simp [hd, hq, Pools.take]
  | beIndex =>
    simp only [hw, pure_eq, done.injEq] at h
    simp [← h, Pools.take]
  | btIndex | groupIndex =>
    simp only [hw, pure_eq, done.injEq] at h
    simp [h]

/-- A request gives its demand back, as long as the best-effort counter does not hit zero. -/
theorem refund_done (h : p.refund r = .done p') (hnum : (demand r).2.2 ≤ p.be.num) :
    p' = p.take (-demand r) := by
  unfold Pools.refund at h
  unfold demand at hnum ⊢
  cases hw : r.workloadType with
  | gaIndex =>
    simp only [hw, bind_eq_done, ofOption_eq_done] at h
    obtain ⟨d, hd, q, hq, h⟩ := h
    cases h
    simp only [hd, hq, fl_exact, Pools.take, Prod.fst_neg, Prod.snd_neg, neg_zero, add_zero,
      sub_neg_eq_add, Pools.mk.injEq, IOPoolStatus.mk.injEq, and_true]
    ring
  | beIndex =>
    simp only [hw] at h hnum
    rw [if_neg (by omega)] at h
    cases h
    simp [Pools.take, sub_eq_add_neg]
  | btIndex | groupIndex =>
    simp only [hw, pure_eq, done.injEq] at h
    simp [h]

/-- The request is guaranteed and names its bandwidth, or is best effort, and names a device:
the only shapes `GetRequestByAnnotation` produces. -/
def Schedulable (r : IOResourceRequest) : Prop :=
  match r.devRequest with
  | some d => r.workloadType = .gaIndex ∧ d.request.isSome = true ∨ r.workloadType = .beIndex
  | none => False

instance : ∀ r : IOResourceRequest, Decidable (Schedulable r)
  | ⟨_, _, none⟩ => isFalse id
  | ⟨_, w, some d⟩ =>
    inferInstanceAs (Decidable (w = .gaIndex ∧ d.request.isSome = true ∨ w = .beIndex))

theorem Schedulable.cases (h : Schedulable r) :
    (∃ d q, r.workloadType = .gaIndex ∧ r.devRequest = some d ∧ d.request = some q) ∨
      ∃ d, r.workloadType = .beIndex ∧ r.devRequest = some d := by
  unfold Schedulable at h
  cases hd : r.devRequest with
  | none => simp [hd] at h
  | some d =>
    simp only [hd] at h
    rcases h with ⟨hw, hq⟩ | hw
    · obtain ⟨q, hq⟩ := Option.isSome_iff_exists.mp hq
      exact .inl ⟨d, q, hw, rfl, hq⟩
    · exact .inr ⟨d, hw, rfl⟩

theorem refund_of_schedulable (h : Schedulable r) (hnum : (demand r).2.2 ≤ p.be.num) :
    p.refund r = .done (p.take (-demand r)) := by
  have hex : ∃ p', p.refund r = .done p' := by
    rcases h.cases with ⟨d, q, hw, hd, hq⟩ | ⟨d, hw, hd⟩
    · simp [Pools.refund, hw, hd, hq]
    · simp [Pools.refund, hw]
  obtain ⟨p', hp'⟩ := hex
  rw [hp', refund_done hp' hnum]

def Chargeable (r : IOResourceRequest) : Prop :=
  r.workloadType = .gaIndex → ∃ d q, r.devRequest = some d ∧ d.request = some q

theorem chargeable_cases {o : Outcome Pools} {f : Quantity → Pools}
    (hga : r.workloadType = .gaIndex → o = do
      let d ← ofOption r.devRequest
      let q ← ofOption d.request
      return f q) (hother : r.workloadType ≠ .gaIndex → ∃ p', o = .done p') :
    (∃ p', o = .done p') ∧ Chargeable r ∨ o = .panic ∧ ¬ Chargeable r := by
  by_cases hw : r.workloadType = .gaIndex
  · rw [hga hw]
    unfold Chargeable
    cases hd : r.devRequest with
    | none => exact .inr ⟨by simp, by simp [hw]⟩
    | some d =>
      cases hq : d.request with
      | none => exact .inr ⟨by simp [hq], by simp [hw, hq]⟩
      | some q => exact .inl ⟨by simp [hq], by simp [hq]⟩
  · exact .inl ⟨hother hw, fun h => absurd h hw⟩

theorem charge_cases (p : Pools) (r : IOResourceRequest) :
    (∃ p', p.charge r = .done p') ∧ Chargeable r ∨ p.charge r = .panic ∧ ¬ Chargeable r := by
  refine chargeable_cases (fun hw => by simp only [Pools.charge, hw]; rfl) fun hw => ?_
  unfold Pools.charge
  split
  · contradiction
  · exact ⟨_, rfl⟩
  · exact ⟨_, rfl⟩

theorem refund_cases (p : Pools) (r : IOResourceRequest) :
    (∃ p', p.refund r = .done p') ∧ Chargeable r ∨ p.refund r = .panic ∧ ¬ Chargeable r := by
  refine chargeable_cases (fun hw => by simp only [Pools.refund, hw]; rfl) fun hw => ?_
  unfold Pools.refund
  split
  · contradiction
  · exact ⟨_, rfl⟩
  · exact ⟨_, rfl⟩

theorem Schedulable.chargeable (h : Schedulable r) : Chargeable r := by
  intro hw
  rcases h.cases with ⟨d, q, -, hd, hq⟩ | ⟨d, hw', -⟩
  · exact ⟨d, q, hd, hq⟩
  · rw [hw] at hw'; cases hw'

/-! ## The demand of a pod on a device -/

def devName (r : IOResourceRequest) : Option String := r.devRequest.map (·.devName)

/-- What a request of any kind takes from device `dev` as a device of I/O type `t`. -/
def demandOn (t : IOType) (dev : String) (r : IOResourceRequest) : Demand :=
  if r.ioType = t ∧ devName r = some dev then demand r else 0

theorem demandOn_self (ht : r.ioType = t) (hd : devName r = some dev) :
    demandOn t dev r = demand r := by
  rw [demandOn, if_pos ⟨ht, hd⟩]

theorem demandOn_of_ne (hd : devName r ≠ some dev) : demandOn t dev r = 0 := by
  rw [demandOn, if_neg fun h => hd h.2]

def podDemand (t : IOType) (dev : String) (rs : List IOResourceRequest) : Demand :=
  (rs.map (demandOn t dev)).sum

@[simp] theorem podDemand_nil (t : IOType) (dev : String) : podDemand t dev [] = 0 := rfl

@[simp] theorem podDemand_cons (t : IOType) (dev : String) (r : IOResourceRequest)
    (rs : List IOResourceRequest) :
    podDemand t dev (r :: rs) = demandOn t dev r + podDemand t dev rs := by
  simp [podDemand]

@[simp] theorem podDemand_append (t : IOType) (dev : String) (as bs : List IOResourceRequest) :
    podDemand t dev (as ++ bs) = podDemand t dev as + podDemand t dev bs := by
  simp [podDemand]

theorem podDemand_eq_zero (h : ∀ r ∈ rs, r.ioType = t → devName r ≠ some dev) :
    podDemand t dev rs = 0 := by
  apply List.sum_eq_zero
  intro d hd
  obtain ⟨r, hr, rfl⟩ := List.mem_map.mp hd
  unfold demandOn
  rw [if_neg]
  intro hc
  exact h r hr hc.1 hc.2

theorem podDemand_of_ioType_ne (h : ∀ r ∈ rs, r.ioType ≠ t) : podDemand t dev rs = 0 :=
  podDemand_eq_zero fun r hr ht => absurd ht (h r hr)

theorem podDemand_be_nonneg (t : IOType) (dev : String) (rs : List IOResourceRequest) :
    0 ≤ (podDemand t dev rs).2.2 := by
  induction rs with
  | nil => simp
  | cons r rs ih =>
    have hr : 0 ≤ (demandOn t dev r).2.2 := by
      unfold demandOn
      split
      · exact demand_be_nonneg r
      · simp
    exact add_nonneg hr ih

/-- The requests of a pod of one I/O type are schedulable and name different devices. -/
structure WellFormed (t : IOType) (rs : List IOResourceRequest) : Prop where
  schedulable : ∀ r ∈ rs, r.ioType = t → Schedulable r
  distinct : rs.Pairwise fun a b => a.ioType = t → b.ioType = t → devName a ≠ devName b

theorem WellFormed.tail (h : WellFormed t (r :: rs)) : WellFormed t rs :=
  ⟨fun x hx => h.schedulable x (List.mem_cons_of_mem r hx), (List.pairwise_cons.mp h.distinct).2⟩

theorem WellFormed.podDemand_tail (h : WellFormed t (r :: rs)) (ht : r.ioType = t)
    (hd : devName r = some dev) : podDemand t dev rs = 0 := by
  apply podDemand_eq_zero
  intro x hx hxt hxd
  exact (List.pairwise_cons.mp h.distinct).1 x hx ht hxt (hd.trans hxd.symm)

theorem wellFormed_others (hb : ∀ r ∈ before, r.ioType ≠ t) (ha : ∀ r ∈ after, r.ioType ≠ t)
    (h : WellFormed t rs) : WellFormed t (before ++ rs ++ after) := by
  constructor
  · intro r hr ht
    simp only [List.mem_append] at hr
    rcases hr with (hr | hr) | hr
    · exact absurd ht (hb r hr)
    · exact h.schedulable r hr ht
    · exact absurd ht (ha r hr)
  · rw [List.pairwise_append, List.pairwise_append]
    refine ⟨⟨?_, h.distinct, ?_⟩, ?_, ?_⟩
    · exact List.pairwise_of_forall_mem_list fun a ha' b _ ht => absurd ht (hb a ha')
    · intro a ha' b _ ht; exact absurd ht (hb a ha')
    · exact List.pairwise_of_forall_mem_list fun a ha' b _ ht => absurd ht (ha a ha')
    · intro a _ b hb' _ ht; exact absurd ht (ha b hb')

theorem podDemand_others (hb : ∀ r ∈ before, r.ioType ≠ t) (ha : ∀ r ∈ after, r.ioType ≠ t) :
    podDemand t dev (before ++ rs ++ after) = podDemand t dev rs := by
  rw [podDemand_append, podDemand_append, podDemand_eq_zero fun r hr ht => absurd ht (hb r hr),
    podDemand_eq_zero fun r hr ht => absurd ht (ha r hr), zero_add, add_zero]

theorem calculateReservedBw_eq (dev : String) (h : WellFormed t rs) (i o : ℚ) :
    ∃ isBe, calculateReservedBw t dev rs i o =
        (i + (podDemand t dev rs).1, o + (podDemand t dev rs).2.1, isBe) ∧
      (podDemand t dev rs).2.2 = if isBe then 1 else 0 := by
  induction rs generalizing i o with
  | nil => exact ⟨false, by simp [calculateReservedBw]⟩
  | cons r rs ih =>
    by_cases hon : r.ioType = t ∧ devName r = some dev
    · -- the request names the device, so the rest of the list adds nothing
      obtain ⟨ht, hd⟩ := hon
      have hrest := h.podDemand_tail ht hd
      have hself : podDemand t dev (r :: rs) = demand r := by
        rw [podDemand_cons, hrest, demandOn_self ht hd, add_zero]
      rw [hself]
      rcases (h.schedulable r List.mem_cons_self ht).cases with
        ⟨d, q, hw, hdr, hq⟩ | ⟨d, hw, hdr⟩
      · have hdev : d.devName = dev := by simpa [devName, hdr] using hd
        obtain ⟨isBe, hcalc, hbe⟩ := ih h.tail (i + q.inbps) (o + q.outbps)
        rw [hrest] at hcalc hbe
        refine ⟨isBe, ?_, ?_⟩
        · simpa [calculateReservedBw, ht, hdr, hdev, hw, hq, demand] using hcalc
        · simpa [demand, hw, hdr, hq] using hbe
      · have hdev : d.devName = dev := by simpa [devName, hdr] using hd
        exact ⟨true, by simp [calculateReservedBw, ht, hdr, hdev, hw, demand], by
          simp [demand, hw]⟩
    · have hskip : calculateReservedBw t dev (r :: rs) i o = calculateReservedBw t dev rs i o := by
        rw [calculateReservedBw]
        by_cases ht : r.ioType = t
        · cases hdr : r.devRequest with
          | none => simp [ht]
          | some d =>
            have hdev : d.devName ≠ dev := by
              intro hdev
              exact hon ⟨ht, by simp [devName, hdr, hdev]⟩
            simp [ht, hdev]
        · simp [ht]
      have hzero : podDemand t dev (r :: rs) = podDemand t dev rs := by
        rw [podDemand_cons, demandOn, if_neg hon, zero_add]
      rw [hskip, hzero]
      exact ih h.tail i o

/-- For a well-formed entry the recomputation finds the demand the entry took. -/
theorem computed_eq_podDemand (h : WellFormed t e.request) :
    computed t dev e = podDemand t dev e.request := by
  obtain ⟨isBe, hcalc, hbe⟩ := calculateReservedBw_eq dev h 0 0
  simp only [computed, hcalc, zero_add]
  rw [← hbe]

theorem computed_be_nonneg (t : IOType) (dev : String) (e : PodRequest) :
    0 ≤ (computed t dev e).2.2 := by
  unfold computed
  rcases calculateReservedBw t dev e.request 0 0 with ⟨i, o, isBe⟩
  cases isBe <;> simp

/-! ## From scratch -/

/-- What a list of reserved pods takes from a device, as `InitNodeStatus` adds it up. -/
def computedTotal (t : IOType) (dev : String) (pods : Dict String PodRequest) : Demand :=
  Dict.total (fun _ e => computed t dev e) pods

theorem computedTotal_in (t : IOType) (dev : String) (pods : Dict String PodRequest) :
    (computedTotal t dev pods).1 = Dict.total (fun _ e => (computed t dev e).1) pods :=
  Dict.total_map (AddMonoidHom.fst ℚ (ℚ × Int)) pods

theorem computedTotal_out (t : IOType) (dev : String) (pods : Dict String PodRequest) :
    (computedTotal t dev pods).2.1 = Dict.total (fun _ e => (computed t dev e).2.1) pods :=
  Dict.total_map ((AddMonoidHom.fst ℚ Int).comp (AddMonoidHom.snd ℚ (ℚ × Int))) pods

theorem computedTotal_be (t : IOType) (dev : String) (pods : Dict String PodRequest) :
    (computedTotal t dev pods).2.2 = Dict.total (fun _ e => (computed t dev e).2.2) pods :=
  Dict.total_map ((AddMonoidHom.snd ℚ Int).comp (AddMonoidHom.snd ℚ (ℚ × Int))) pods

/-- Computing from scratch takes the sum of all demands from the full pools. -/
theorem initDevice_eq_take (t : IOType) (bePool : Int) (dev : String) (info : Device)
    (pods : Dict String PodRequest) (p : Pools) :
    initDevice t bePool dev info pods p =
      (initDevice t bePool dev info ∅ p).take (computedTotal t dev pods) := by
  simp only [initDevice, Pools.take, computedTotal_in, computedTotal_out, computedTotal_be,
    Dict.total_empty, sub_zero, zero_add]
  congr 2
  ring

theorem computedTotal_insert (h : uid ∉ pods) :
    computedTotal t dev (pods.insert uid e) = computed t dev e + computedTotal t dev pods :=
  Dict.total_insert h

theorem computedTotal_erase (h : pods.lookup uid = some e) :
    computedTotal t dev (pods.erase uid) = computedTotal t dev pods - computed t dev e :=
  Dict.total_erase h

theorem computed_be_le_total (h : pods.lookup uid = some e) :
    (computed t dev e).2.2 ≤ (computedTotal t dev pods).2.2 := by
  have hsum : (computedTotal t dev pods).2.2 =
      (computed t dev e).2.2 + (computedTotal t dev (pods.erase uid)).2.2 := by
    rw [computedTotal, Dict.total_eq_erase h]; rfl
  have hrest : 0 ≤ (computedTotal t dev (pods.erase uid)).2.2 := by
    rw [computedTotal_be]
    exact Dict.total_nonneg fun _ e _ => computed_be_nonneg t dev e
  omega

theorem truncInt_nonneg (h : 0 ≤ x) : 0 ≤ truncInt x :=
  Int.tdiv_nonneg (Rat.num_nonneg.mpr h) (Int.natCast_nonneg _)

theorem truncInt_le (h : 0 ≤ x) : (truncInt x : ℚ) ≤ x := by
  rw [truncInt, Int.tdiv_eq_ediv_of_nonneg (Rat.num_nonneg.mpr h), ← Rat.floor_def]
  exact Int.floor_le x

/-- A pool holds at most its percentage of the capacity: both divisions round towards zero. -/
theorem poolShare_le (hp : 0 ≤ pct) (hc : 0 ≤ capacity) :
    (poolShare pct capacity : ℚ) ≤ pct * capacity / 100 := by
  have hmul : 0 ≤ pct * truncInt capacity := mul_nonneg hp (truncInt_nonneg hc)
  have hdiv : poolShare pct capacity * 100 ≤ pct * truncInt capacity := by
    rw [poolShare, Int.tdiv_eq_ediv_of_nonneg hmul]
    exact Int.ediv_mul_le _ (by norm_num)
  rw [le_div_iff₀ (by norm_num)]
  calc (poolShare pct capacity : ℚ) * 100
      ≤ pct * truncInt capacity := by exact_mod_cast hdiv
    _ ≤ pct * capacity := mul_le_mul_of_nonneg_left (truncInt_le hc) (by exact_mod_cast hp)

/-- Of each of the two divisions less than one is lost. -/
theorem lt_poolShare_add_two (hp : 0 ≤ pct) (hp' : pct ≤ 100) (hc : 0 ≤ capacity) :
    pct * capacity / 100 < poolShare pct capacity + 2 := by
  have hmul : 0 ≤ pct * truncInt capacity := mul_nonneg hp (truncInt_nonneg hc)
  have hdiv : pct * truncInt capacity < poolShare pct capacity * 100 + 100 := by
    rw [poolShare, Int.tdiv_eq_ediv_of_nonneg hmul]
    omega
  have htrunc : capacity < truncInt capacity + 1 := by
    rw [truncInt, Int.tdiv_eq_ediv_of_nonneg (Rat.num_nonneg.mpr hc), ← Rat.floor_def]
    exact Int.lt_floor_add_one capacity
  have hdiv' : (pct : ℚ) * truncInt capacity < poolShare pct capacity * 100 + 100 := by
    exact_mod_cast hdiv
  have hle : (pct : ℚ) * capacity ≤ pct * truncInt capacity + pct := by
    have := mul_le_mul_of_nonneg_left htrunc.le (by exact_mod_cast hp : (0 : ℚ) ≤ pct)
    linarith
  have hpct : (pct : ℚ) ≤ 100 := by exact_mod_cast hp'
  linarith

end IOIsolation.Sched
