import Mathlib

/-!
# Service.BlockSizes

The disk engine reports the bandwidth of an application in six buckets, one for each block size. The
kernel counts only bytes and operations, so `ConvertData` splits a byte rate between the two sizes
around the mean size of an operation. Rates are exact rationals.

* `sum_convertData`        — no byte is lost or invented, whatever the rates are.
* `decomposes_convertData` — the buckets are a decomposition of both rates.
-/

namespace IOIsolation.Service.BlockSizes

open Function

def sizes : Fin 6 → ℚ := ![512, 1024, 4096, 8192, 16384, 32768]

local instance neZeroSix : NeZero 6 := ⟨by decide⟩

def solveEquations (a1 b1 c1 a2 b2 c2 : ℚ) : ℚ × ℚ :=
  let det := a1 * b2 - a2 * b1
  if det = 0 then (0, 0)
  else
    let x := (c1 * b2 - c2 * b1) / det
    let y := (a1 * c2 - a2 * c1) / det
    (x * a1, y * b1)

/-- The assignment `data[i], data[j] = v`. -/
def assign (data : Fin 6 → ℚ) (i j : Fin 6) (v : ℚ × ℚ) : Fin 6 → ℚ :=
  update (update data i v.1) j v.2

def convertData (bps iops : ℚ) (data : Fin 6 → ℚ) : Fin 6 → ℚ :=
  let bs := bps / iops
  -- the quotient is infinite or not a number: only minus infinity is at most 512
  if iops = 0 then update data (if bps < 0 then 0 else 5) bps
  else if bs ≤ 512 then update data 0 bps
  else if bs < 1024 then assign data 0 1 (solveEquations 512 1024 bps 1 1 iops)
  else if bs = 1024 then update data 1 bps
  else if bs < 4096 then assign data 1 2 (solveEquations 1024 4096 bps 1 1 iops)
  else if bs = 4096 then update data 2 bps
  else if bs < 8192 then assign data 2 3 (solveEquations 4096 8192 bps 1 1 iops)
  else if bs = 8192 then update data 3 bps
  else if bs < 16384 then assign data 3 4 (solveEquations 8192 16384 bps 1 1 iops)
  else if bs = 16384 then update data 4 bps
  else if bs < 32768 then assign data 4 5 (solveEquations 16384 32768 bps 1 1 iops)
  else update data 5 bps

/-- What a bucket gets adds up to the byte rate, and to the operation rate if an operation of the
mean size fits one of the buckets or lies between two. -/
structure Decomposes (bps iops : ℚ) (data : Fin 6 → ℚ) : Prop where
  nonneg : ∀ i, 0 ≤ data i
  bytes : ∑ i, data i = bps
  adjacent : ∃ i : Fin 6, ∀ j, 0 < data j → j = i ∨ j.val = i.val + 1
  operations : 512 ≤ bps / iops → bps / iops ≤ 32768 → ∑ i, data i / sizes i = iops

variable {bps iops a b : ℚ} {i j : Fin 6} {v : ℚ × ℚ}

/-- The two shares of a byte rate, for block sizes `a` and `b`. -/
structure Shares (a b bps iops : ℚ) (v : ℚ × ℚ) : Prop where
  bytes : v.1 + v.2 = bps
  operations : v.1 / a + v.2 / b = iops

theorem shares_solveEquations (ha : 0 < a) (hab : a < b) :
    Shares a b bps iops (solveEquations a b bps 1 1 iops) := by
  have hb : b ≠ 0 := (ha.trans hab).ne'
  have hdet : a - b ≠ 0 := (sub_neg.mpr hab).ne
  simp only [solveEquations, mul_one, one_mul, if_neg hdet]
  constructor
  · field_simp
    ring
  · rw [mul_div_cancel_right₀ _ ha.ne', mul_div_cancel_right₀ _ hb, ← add_div]
    rw [div_eq_iff hdet]
    ring

/-- The shares are not negative if the mean size lies between the two. -/
theorem solveEquations_nonneg (ha : 0 < a) (hab : a < b) (hlo : a * iops ≤ bps)
    (hhi : bps ≤ b * iops) :
    0 ≤ (solveEquations a b bps 1 1 iops).1 ∧ 0 ≤ (solveEquations a b bps 1 1 iops).2 := by
  have hdet : a - b < 0 := sub_neg.mpr hab
  simp only [solveEquations, mul_one, one_mul, if_neg hdet.ne]
  constructor
  · refine mul_nonneg (div_nonneg_of_nonpos ?_ hdet.le) ha.le
    linarith
  · refine mul_nonneg (div_nonneg_of_nonpos ?_ hdet.le) (ha.trans hab).le
    linarith

theorem sum_update_zero (f : Fin 6 → ℚ → ℚ) (hf : ∀ k, f k 0 = 0) (x : ℚ) :
    ∑ k, f k (update (0 : Fin 6 → ℚ) i x k) = f i x := by
  rw [Finset.sum_eq_single i fun k _ hk => by simp [hk, hf]]
  · simp
  · simp

theorem sum_assign_zero (f : Fin 6 → ℚ → ℚ) (hf : ∀ k, f k 0 = 0) (hij : i ≠ j) :
    ∑ k, f k (assign 0 i j v k) = f i v.1 + f j v.2 := by
  rw [Finset.sum_eq_add i j hij fun k _ hk => by simp [assign, hk.1, hk.2, hf]]
  · simp [assign, hij]
  · simp
  · simp

/-- The whole rate goes to one bucket, or it is shared by two around the mean size. -/
theorem convertData_cases (bps iops : ℚ) (data : Fin 6 → ℚ) :
    (∃ i, convertData bps iops data = update data i bps ∧
      (iops ≠ 0 → 512 ≤ bps / iops → bps / iops ≤ 32768 → bps / iops = sizes i)) ∨
    ∃ i j : Fin 6, j.val = i.val + 1 ∧ sizes i ≤ bps / iops ∧ bps / iops ≤ sizes j ∧
      convertData bps iops data =
        assign data i j (solveEquations (sizes i) (sizes j) bps 1 1 iops) := by
  fun_cases convertData bps iops data with
  | case1 h0 => exact .inl ⟨_, rfl, fun h => absurd h0 h⟩
  | case2 bs h0 h1 => exact .inl ⟨0, rfl, fun _ h _ => le_antisymm h1 h⟩
  | case3 bs h0 h1 h2 => exact .inr ⟨0, 1, rfl, (not_le.mp h1).le, h2.le, rfl⟩
  | case4 bs h0 h1 h2 h3 => exact .inl ⟨1, rfl, fun _ _ _ => h3⟩
  | case5 bs h0 h1 h2 h3 h4 => exact .inr ⟨1, 2, rfl, not_lt.mp h2, h4.le, rfl⟩
  | case6 bs h0 h1 h2 h3 h4 h5 => exact .inl ⟨2, rfl, fun _ _ _ => h5⟩
  | case7 bs h0 h1 h2 h3 h4 h5 h6 => exact .inr ⟨2, 3, rfl, not_lt.mp h4, h6.le, rfl⟩
  | case8 bs h0 h1 h2 h3 h4 h5 h6 h7 => exact .inl ⟨3, rfl, fun _ _ _ => h7⟩
  | case9 bs h0 h1 h2 h3 h4 h5 h6 h7 h8 => exact .inr ⟨3, 4, rfl, not_lt.mp h6, h8.le, rfl⟩
  | case10 bs h0 h1 h2 h3 h4 h5 h6 h7 h8 h9 => exact .inl ⟨4, rfl, fun _ _ _ => h9⟩
  | case11 bs h0 h1 h2 h3 h4 h5 h6 h7 h8 h9 h10 =>
    exact .inr ⟨4, 5, rfl, not_lt.mp h8, h10.le, rfl⟩
  | case12 bs h0 h1 h2 h3 h4 h5 h6 h7 h8 h9 h10 =>
    exact .inl ⟨5, rfl, fun _ _ h => le_antisymm h (not_lt.mp h10)⟩

theorem sizes_pos (i : Fin 6) : 0 < sizes i := by
  fin_cases i <;> norm_num [sizes]

theorem sizes_lt (hij : j.val = i.val + 1) : sizes i < sizes j := by
  revert i j
  decide +kernel

/-- No byte is lost or invented, also when no operation was counted. -/
theorem sum_convertData (bps iops : ℚ) : ∑ k, convertData bps iops 0 k = bps := by
  rcases convertData_cases bps iops 0 with ⟨i, h, -⟩ | ⟨i, j, hij, -, -, h⟩
  · rw [h]
    exact sum_update_zero (fun _ x => x) (fun _ => rfl) bps
  rw [h]
  refine (sum_assign_zero (fun _ x => x) (fun _ => rfl) ?_).trans
    (shares_solveEquations (sizes_pos i) (sizes_lt hij)).bytes
  omega

theorem decomposes_convertData (hb : 0 ≤ bps) (hi : 0 < iops) :
    Decomposes bps iops (convertData bps iops 0) := by
  have hsum := sum_convertData bps iops
  rcases convertData_cases bps iops 0 with ⟨i, h, hmean⟩ | ⟨i, j, hij, hlo, hhi, h⟩
  · rw [h] at hsum ⊢
    refine ⟨fun k => ?_, hsum, ⟨i, fun k hk => .inl ?_⟩, fun hlo hhi => ?_⟩
    · rw [update_apply]
      split_ifs
      · exact hb
      · exact le_rfl
    · by_contra hne
      simp [hne] at hk
    · rw [sum_update_zero (fun k x => x / sizes k) (fun _ => zero_div _), ← hmean hi.ne' hlo hhi]
      refine div_div_cancel₀ ?_
      rintro rfl
      norm_num at hlo
  · have hne : i ≠ j := by
      omega
    rw [le_div_iff₀ hi] at hlo
    rw [div_le_iff₀ hi] at hhi
    obtain ⟨hx, hy⟩ := solveEquations_nonneg (sizes_pos i) (sizes_lt hij) hlo hhi
    rw [h] at hsum ⊢
    refine ⟨fun k => ?_, hsum, ⟨i, fun k hk => ?_⟩, fun _ _ => ?_⟩
    · rw [assign, update_apply, update_apply]
      split_ifs
      · exact hy
      · exact hx
      · exact le_rfl
    · by_contra hk'
      obtain ⟨hki, hkj⟩ := not_or.mp hk'
      have hkj : k ≠ j := fun heq => hkj (heq ▸ hij)
      simp [assign, hki, hkj] at hk
    · rw [sum_assign_zero (fun k x => x / sizes k) (fun _ => zero_div _) hne]
      exact (shares_solveEquations (sizes_pos i) (sizes_lt hij)).operations

/-- A mean size of 3000 bytes is made of blocks of 1024 and of 4096 bytes. -/
theorem decomposes_mixed :
    convertData 6000 2 0 = ![0, 1024 * (2192 / 3072), 4096 * (3952 / 3072), 0, 0, 0] ∧
      Decomposes 6000 2 (convertData 6000 2 0) :=
  ⟨by decide +kernel, decomposes_convertData (by norm_num) (by norm_num)⟩

end IOIsolation.Service.BlockSizes
