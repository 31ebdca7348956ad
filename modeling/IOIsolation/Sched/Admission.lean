import IOIsolation.Sched.Pools

/-!
# Sched.Admission

What the admission check of one device guarantees for the pools it was made on, and for the pools
after the admitted request is charged.

* `Within`                       — a demand stays within a percentage of the capacities.
* `within_admit`, `within_sub`   — admitting a request and releasing a pod keep it.
* `BeAbove`                      — every best-effort pod keeps more than the minimum.
* `beAbove_admit`, `beAbove_take` — an admission establishes it, later steps keep it.
-/

namespace IOIsolation.Sched

open Lib

variable {t : IOType} {p p0 : Pools} {bem : IOPoolStatus} {name nodeName dev : String}
  {r : IOResourceRequest} {info : Device} {bePool : Int} {d d' : Demand}

theorem admitDevice_ga (h : admitDevice name nodeName p bem r = .done (.ok ()))
    (hw : r.workloadType = .gaIndex) :
    (demand r).1 ≤ p.ga.inBps ∧ (demand r).2.1 ≤ p.ga.outBps ∧
      (demand r).1 + (demand r).2.1 ≤ p.ga.total := by
  unfold admitDevice at h
  simp only [hw] at h
  split at h
  · cases h
  simp only [Outcome.bind_eq_done, Outcome.ofOption_eq_done] at h
  obtain ⟨dr, hdr, q, hq, h⟩ := h
  have hdemand : demand r = (q.inbps, q.outbps, 0) := by simp [demand, hw, hdr, hq]
  split at h
  · cases h
  split at h
  · cases h
  split at h
  · cases h
  · rw [hdemand]
    exact ⟨not_lt.mp ‹_›, not_lt.mp ‹_›, not_lt.mp ‹_›⟩

theorem admitDevice_be (h : admitDevice name nodeName p bem r = .done (.ok ()))
    (hw : r.workloadType = .beIndex) :
    bem.total < p.be.total / (p.be.num + 1) ∧ bem.inBps < p.be.inBps / (p.be.num + 1) ∧
      bem.outBps < p.be.outBps / (p.be.num + 1) := by
  unfold admitDevice at h
  simp only [hw] at h
  split at h
  · cases h
  split at h
  · cases h
  split at h
  · cases h
  split at h
  · cases h
  · exact ⟨not_le.mp ‹_›, not_le.mp ‹_›, not_le.mp ‹_›⟩

/-! ## The guaranteed pool -/

/-- The demand is within `pct` percent of the capacities of the device. -/
def Within (pct : Int) (info : Device) (d : Demand) : Prop :=
  d.1 ≤ pct * info.capacityIn / 100 ∧ d.2.1 ≤ pct * info.capacityOut / 100 ∧
    d.1 + d.2.1 ≤ pct * info.capacityTotal / 100

/-- The percentage is one, and the capacities are not negative. -/
structure ConfigOk (bePool : Int) (info : Device) : Prop where
  pool_nonneg : 0 ≤ bePool
  pool_le : bePool ≤ 100
  in_nonneg : 0 ≤ info.capacityIn
  out_nonneg : 0 ≤ info.capacityOut
  total_nonneg : 0 ≤ info.capacityTotal

theorem within_admit (hc : ConfigOk bePool info) (hd : Within (100 - bePool) info d)
    (h : admitDevice name nodeName ((initDevice t bePool dev info ∅ p0).take d) bem r =
      .done (.ok ())) : Within (100 - bePool) info (d + demand r) := by
  have hpct : 0 ≤ 100 - bePool := by have := hc.pool_le; omega
  have hin := poolShare_le hpct hc.in_nonneg
  have hout := poolShare_le hpct hc.out_nonneg
  have htotal := poolShare_le hpct hc.total_nonneg
  cases hw : r.workloadType with
  | gaIndex =>
    obtain ⟨h1, h2, h3⟩ := admitDevice_ga h hw
    simp only [Pools.take, initDevice, Dict.total_empty, sub_zero] at h1 h2 h3
    refine ⟨?_, ?_, ?_⟩ <;> simp only [Prod.fst_add, Prod.snd_add] <;> linarith
  | beIndex => simpa [demand, hw, Within] using hd
  | btIndex | groupIndex => simpa [demand, hw] using hd

/-- Both bandwidths of the demand are non-negative. -/
def NonNeg (d : Demand) : Prop := 0 ≤ d.1 ∧ 0 ≤ d.2.1

instance (d : Demand) : Decidable (NonNeg d) := inferInstanceAs (Decidable (_ ∧ _))

variable {pct : Int}

theorem within_sub (hd : Within pct info d) (hn : NonNeg d') : Within pct info (d - d') := by
  obtain ⟨h1, h2, h3⟩ := hd
  obtain ⟨hi, ho⟩ := hn
  refine ⟨?_, ?_, ?_⟩ <;> simp only [Prod.fst_sub, Prod.snd_sub] <;> linarith

theorem nonNeg_podDemand {rs : List IOResourceRequest}
    (h : ∀ r ∈ rs, r.ioType = t → NonNeg (demand r)) : NonNeg (podDemand t dev rs) := by
  induction rs with
  | nil => simp [NonNeg]
  | cons r rs ih =>
    obtain ⟨h1, h2⟩ := ih fun x hx => h x (List.mem_cons_of_mem r hx)
    have hr : NonNeg (demandOn t dev r) := by
      unfold demandOn
      split
      · rename_i hc; exact h r List.mem_cons_self hc.1
      · simp [NonNeg]
    exact ⟨add_nonneg hr.1 h1, add_nonneg hr.2 h2⟩

/-! ## The best-effort pool -/

/-- While there are best-effort pods, each of them keeps more than the minimum `bem`. -/
def BeAbove (p : Pools) (bem : IOPoolStatus) : Prop :=
  0 < p.be.num → bem.total < p.be.total / p.be.num ∧ bem.inBps < p.be.inBps / p.be.num ∧
    bem.outBps < p.be.outBps / p.be.num

theorem beAbove_admit (h : admitDevice name nodeName p bem r = .done (.ok ()))
    (hw : r.workloadType = .beIndex) : BeAbove (p.take (demand r)) bem := by
  intro _
  have := admitDevice_be h hw
  simpa [demand, hw, Pools.take] using this

def BeNonneg (p : Pools) : Prop := 0 ≤ p.be.total ∧ 0 ≤ p.be.inBps ∧ 0 ≤ p.be.outBps

theorem div_le_div_of_num_le {x : ℚ} (hx : 0 ≤ x) {m n : Int} (hm : 0 < m) (h : m ≤ n) :
    x / n ≤ x / m := by
  have hm' : (0 : ℚ) < m := by exact_mod_cast hm
  have hmn : (m : ℚ) ≤ n := by exact_mod_cast h
  exact div_le_div_of_nonneg_left hx hm' hmn

theorem beAbove_take (hp : BeNonneg p) (h : BeAbove p bem) (hd : d.2.2 ≤ 0) :
    BeAbove (p.take d) bem := by
  intro hnum
  simp only [Pools.take] at hnum ⊢
  obtain ⟨h1, h2, h3⟩ := h (by omega)
  have hle : p.be.num + d.2.2 ≤ p.be.num := by omega
  exact ⟨h1.trans_le (div_le_div_of_num_le hp.1 hnum hle),
    h2.trans_le (div_le_div_of_num_le hp.2.1 hnum hle),
    h3.trans_le (div_le_div_of_num_le hp.2.2 hnum hle)⟩

theorem poolShare_nonneg {capacity : ℚ} (hp : 0 ≤ pct) (hc : 0 ≤ capacity) :
    0 ≤ poolShare pct capacity :=
  Int.tdiv_nonneg (mul_nonneg hp (truncInt_nonneg hc)) (by norm_num)

theorem beNonneg_of_beShare (hc : ConfigOk bePool info)
    (hbe : p.be.total = poolShare bePool info.capacityTotal ∧
      p.be.inBps = poolShare bePool info.capacityIn ∧
      p.be.outBps = poolShare bePool info.capacityOut) : BeNonneg p := by
  obtain ⟨h1, h2, h3⟩ := hbe
  rw [BeNonneg, h1, h2, h3]
  refine ⟨?_, ?_, ?_⟩
  · exact_mod_cast poolShare_nonneg hc.pool_nonneg hc.total_nonneg
  · exact_mod_cast poolShare_nonneg hc.pool_nonneg hc.in_nonneg
  · exact_mod_cast poolShare_nonneg hc.pool_nonneg hc.out_nonneg

/-! ## What a list of pods has reserved -/

/-- What the pods of a list ask of a device: their guaranteed bandwidths, and how many
best-effort requests there are. -/
def reserved (t : IOType) (dev : String) (pods : Dict String PodRequest) : Demand :=
  Dict.total (fun _ e => podDemand t dev e.request) pods

theorem computedTotal_eq_reserved {pods : Dict String PodRequest}
    (h : ∀ uid e, pods.lookup uid = some e → WellFormed t e.request) :
    computedTotal t dev pods = reserved t dev pods :=
  Dict.total_congr fun uid e he => computed_eq_podDemand (h uid e he)

end IOIsolation.Sched
