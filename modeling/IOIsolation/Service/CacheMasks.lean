import Mathlib

/-!
# Service.CacheMasks

The cache mask of a percentage range, laid over the base mask of the cache. Masks have 64 bits, and
a shift drops what does not fit.

* `isolated_iff`     — two disjoint ranges share no bit exactly if the end of the first and the start
  of the second do not round to the same bit.
* `halves_share_bit` — for a base of eleven bits the two halves do.
-/

namespace IOIsolation.Service.CacheMasks

open Finset

abbrev Bitmask : Type := BitVec 64

/-! ## Bits of a mask -/

def ones (b : Bitmask) : Finset ℕ := (range 64).filter fun i => b.getLsbD i

def onesCount64 (b : Bitmask) : ℕ := (ones b).card

-- The source has -1 for the empty mask in both, and asks only for masks that are not empty.
def msbOne (b : Bitmask) : ℕ := (ones b).sup id

def lsbOne (b : Bitmask) : ℕ := if h : (ones b).Nonempty then (ones b).min' h else 64

/-- The errors: an empty base, more than one block of bits in it or fewer than `minBits`, an invalid
percentage range, and no room to widen it. -/
inductive MaskError where
  | emptyBase
  | baseBlocks (base : Bitmask)
  | baseBits (base : Bitmask) (minBits : ℕ)
  | range (lowRange highRange : ℕ)
  | noRoom (lowRange highRange : ℕ) (base : Bitmask)
  deriving DecidableEq

/-! ## The mask of a range -/

def verifyCatBaseMask (base : Bitmask) (minBits : ℕ) : Except MaskError Unit :=
  if base = 0 then .error .emptyBase
  else if onesCount64 base ≠ msbOne base - lsbOne base + 1 then .error (.baseBlocks base)
  else if onesCount64 base < minBits then .error (.baseBits base minBits)
  else .ok ()

/-- The bit of a base of `width` bits on which a percentage falls. -/
def bitOf (pct width : ℕ) : ℕ := (pct - 1) * width / 100

/-- The bits from `lsb` to `msb`, widened to `minBits` of them downwards and then upwards. -/
def widen (minBits width lsb msb : ℕ) : Option (ℕ × ℕ) :=
  let numBits := msb - lsb + 1
  if numBits < minBits then
    let gap := minBits - numBits
    let (gap, lsb) := if gap > lsb then (gap - lsb, 0) else (0, lsb - gap)
    if gap ≤ width - msb - 1 then some (lsb, msb + gap) else none
  else some (lsb, msb)

def block (lsb msb : ℕ) : Bitmask := (((1 : Bitmask) <<< (msb - lsb + 1)) - 1) <<< lsb

def transform (lowRange highRange minBits : ℕ) (base : Bitmask) : Except MaskError Bitmask := do
  verifyCatBaseMask base minBits
  let width := msbOne base - lsbOne base + 1
  let l := if lowRange = 0 then 1 else lowRange
  let h := highRange
  if l > h ∨ h > 100 ∨ l > 100 then .error (.range lowRange highRange)
  else
    match widen minBits width (bitOf l width) (bitOf h width) with
    | none => .error (.noRoom lowRange highRange base)
    | some (lsb, msb) => return block (lsb + lsbOne base) (msb + lsbOne base)

/-! ## Blocks of bits -/

variable {b base : Bitmask} {i minBits low high lo hi : ℕ}

theorem mem_ones : i ∈ ones b ↔ b.getLsbD i = true := by
  rw [ones, mem_filter, mem_range, and_iff_right_iff_imp]
  exact BitVec.lt_of_getLsbD

/-- The shifts make the block also when it has all 64 bits and `1 <<< 64` is zero. -/
theorem ones_block (hle : lo ≤ hi) (hhi : hi < 64) : ones (block lo hi) = Icc lo hi := by
  have hrun : (1 : Bitmask) <<< (hi - lo + 1) - 1 = BitVec.ofNat 64 (2 ^ (hi - lo + 1) - 1) := by
    have hpos := Nat.two_pow_pos (hi - lo + 1)
    have hone : (1 : Bitmask).toNat = 1 := rfl
    refine BitVec.eq_of_toNat_eq ?_
    simp only [BitVec.toNat_sub, BitVec.toNat_shiftLeft, BitVec.toNat_ofNat, Nat.shiftLeft_eq, hone]
    omega
  ext i
  rw [mem_ones, mem_Icc, block, hrun, BitVec.getLsbD_shiftLeft, BitVec.getLsbD_ofNat,
    Nat.testBit_two_pow_sub_one]
  simp only [Bool.and_eq_true, Bool.not_eq_true', decide_eq_true_eq, decide_eq_false_iff_not]
  omega

theorem bitOf_mono (width : ℕ) (h : low ≤ high) : bitOf low width ≤ bitOf high width := by
  unfold bitOf
  gcongr

theorem bitOf_lt {width : ℕ} (h : high ≤ 100) (hw : 0 < width) : bitOf high width < width := by
  rw [bitOf, Nat.div_lt_iff_lt_mul (by norm_num), mul_comm]
  exact Nat.mul_lt_mul_of_pos_left (by omega) hw

/-! ## Ranges of a base that is one block -/

section

variable (hle : lo ≤ hi) (hbase : ones base = Icc lo hi)
include hle hbase

theorem block_bounds :
    base ≠ 0 ∧ lsbOne base = lo ∧ msbOne base = hi ∧ onesCount64 base = hi + 1 - lo ∧ hi < 64 := by
  have hlo : lo ∈ ones base := hbase ▸ left_mem_Icc.2 hle
  have hhi : hi ∈ ones base := hbase ▸ right_mem_Icc.2 hle
  have hmem : ∀ i ∈ ones base, lo ≤ i ∧ i ≤ hi := fun i h => mem_Icc.1 (hbase ▸ h)
  refine ⟨?_, ?_, ?_, ?_, mem_range.1 (mem_filter.1 hhi).1⟩
  · rintro rfl
    simp [mem_ones] at hlo
  · rw [lsbOne, dif_pos ⟨lo, hlo⟩]
    exact le_antisymm (min'_le _ _ hlo) (le_min' _ _ _ fun i h => (hmem i h).1)
  · exact le_antisymm (Finset.sup_le fun i h => (hmem i h).2) (le_sup (f := id) hhi)
  · rw [onesCount64, hbase, Nat.card_Icc]

/-- A range that needs no widening has its own bits of the base. -/
theorem transform_ok (h1 : 1 ≤ low) (hlow : low ≤ high) (h100 : high ≤ 100)
    (hw : minBits ≤ bitOf high (onesCount64 base) - bitOf low (onesCount64 base) + 1) :
    ∃ m, transform low high minBits base = .ok m ∧
      ones m = Icc (bitOf low (onesCount64 base) + lo) (bitOf high (onesCount64 base) + lo) := by
  obtain ⟨hne, hl, hm, hc, h64⟩ := block_bounds hle hbase
  have hmono := bitOf_mono (onesCount64 base) hlow
  have hlt := bitOf_lt h100 (show 0 < onesCount64 base by omega)
  have hwidth : msbOne base - lo + 1 = onesCount64 base := by omega
  have hverify : verifyCatBaseMask base minBits = .ok () := by
    rw [verifyCatBaseMask, if_neg hne, if_neg (by omega), if_neg (by omega)]
  have hwiden : widen minBits (onesCount64 base) (bitOf low (onesCount64 base))
      (bitOf high (onesCount64 base)) = some (_, _) := if_neg (Nat.not_lt.2 hw)
  refine ⟨_, ?_, ones_block (by omega) (by omega)⟩
  rw [transform, hverify]
  simp only [hl, hwidth, bind, Except.bind, if_neg (show low ≠ 0 by omega),
    if_neg (show ¬(low > high ∨ high > 100 ∨ low > 100) by omega), hwiden]
  rfl

/-- Two ranges that need no widening share no bit exactly if the last bit of the first one comes
before the first bit of the second. -/
theorem isolated_iff {l₁ h₁ l₂ h₂ : ℕ}
    (h1 : 1 ≤ l₁) (h2 : l₁ ≤ h₁) (h3 : h₁ < l₂) (h4 : l₂ ≤ h₂) (h5 : h₂ ≤ 100)
    (hw₁ : minBits ≤ bitOf h₁ (onesCount64 base) - bitOf l₁ (onesCount64 base) + 1)
    (hw₂ : minBits ≤ bitOf h₂ (onesCount64 base) - bitOf l₂ (onesCount64 base) + 1) :
    ∃ m₁ m₂, transform l₁ h₁ minBits base = .ok m₁ ∧ transform l₂ h₂ minBits base = .ok m₂ ∧
      (Disjoint (ones m₁) (ones m₂) ↔
        bitOf h₁ (onesCount64 base) < bitOf l₂ (onesCount64 base)) := by
  obtain ⟨m₁, hm₁, ho₁⟩ := transform_ok hle hbase h1 h2 (by omega) hw₁
  obtain ⟨m₂, hm₂, ho₂⟩ := transform_ok hle hbase (by omega) h4 h5 hw₂
  have hstart := bitOf_mono (onesCount64 base) (show l₁ ≤ l₂ by omega)
  have hend := bitOf_mono (onesCount64 base) h4
  refine ⟨m₁, m₂, hm₁, hm₂, ?_⟩
  rw [ho₁, ho₂, disjoint_left]
  constructor
  · intro hd
    by_contra hlt
    -- the first bit of the second range
    exact hd (mem_Icc.2 ⟨Nat.add_le_add_right hstart lo, by omega⟩) (mem_Icc.2 ⟨le_rfl, by omega⟩)
  · intro hlt i hi₁ hi₂
    rw [mem_Icc] at hi₁ hi₂
    omega

end

theorem isolated_halves : ∃ m₁ m₂, transform 1 50 1 0xfff = .ok m₁ ∧
    transform 51 100 1 0xfff = .ok m₂ ∧ Disjoint (ones m₁) (ones m₂) := by
  have hbase : ones 0xfff = Icc 0 11 := by decide +kernel
  have hcount : onesCount64 0xfff = 12 := by decide +kernel
  obtain ⟨m₁, m₂, h₁, h₂, h⟩ := isolated_iff (by norm_num) hbase le_rfl (show 1 ≤ 50 by norm_num)
    (show 50 < 51 by norm_num) (show 51 ≤ 100 by norm_num) le_rfl (show 1 ≤ _ by omega) (by omega)
  exact ⟨m₁, m₂, h₁, h₂, h.2 (by rw [hcount]; decide)⟩

/-- Both ranges have bit 5 of the eleven. -/
theorem halves_share_bit : ∃ m₁ m₂, transform 1 50 1 0x7ff = .ok m₁ ∧
    transform 51 100 1 0x7ff = .ok m₂ ∧ ¬Disjoint (ones m₁) (ones m₂) :=
  ⟨0x3f, 0x7e0, by decide +kernel⟩

end IOIsolation.Service.CacheMasks
