import IOIsolation.Sched.BlockRequest

/-!
# Sched.RatioLookup

The ratio of a block size: `FindMappingRatio` scans the table that `ParseMappingRatio` has sorted.

* `looked_findMappingRatio` — the entry with the greatest block size that is not above the one asked
  for, or the smallest of all.
-/

namespace IOIsolation.Sched.BlockIo

open Lib List

/-- An entry of the table with a block size and a positive ratio. -/
def KeptRatio [QuantityParser] (ratio : Dict String ℚ) (m : MappingRatio) : Prop :=
  ∃ q, ratio.lookup q = some m.ratio ∧ parseQuantity q = some m.blockSize ∧ 0 < m.ratio

/-- The entry for a block size: the greatest that does not exceed it, or the smallest if all do. -/
def Looked (ratios : MappingRatio → Prop) (bs : ℚ) (m : MappingRatio) : Prop :=
  ratios m ∧ (m.blockSize.value ≤ bs ∧
      (∀ k, ratios k → k.blockSize.value ≤ bs → k.blockSize.value ≤ m.blockSize.value) ∨
    ∀ k, ratios k → bs < k.blockSize.value ∧ m.blockSize.value ≤ k.blockSize.value)

theorem looked_findRatioFrom {bs : Amount} (prev : Option MappingRatio)
    {ratios : List MappingRatio} (hprev : ∀ p ∈ prev, p.blockSize.value < bs.value)
    (hsorted : (prev.toList ++ ratios).Pairwise (·.blockSize.value ≤ ·.blockSize.value))
    (hne : prev.toList ++ ratios ≠ []) :
    Looked (· ∈ prev.toList ++ ratios) bs.value (findRatioFrom bs prev ratios) := by
  induction ratios generalizing prev with
  | nil =>
    obtain ⟨p, rfl⟩ := Option.ne_none_iff_exists'.mp fun h : prev = none => hne (by rw [h]; rfl)
    exact ⟨by simp [findRatioFrom], .inl ⟨(hprev p rfl).le, by simp [findRatioFrom]⟩⟩
  | cons r rs ih =>
    obtain ⟨-, hrs, hpre⟩ := pairwise_append.mp hsorted
    have hr : ∀ k ∈ r :: rs, r.blockSize.value ≤ k.blockSize.value :=
      forall_mem_cons.mpr ⟨le_rfl, (pairwise_cons.mp hrs).1⟩
    unfold findRatioFrom
    split_ifs with heq hlt
    · exact ⟨by simp, .inl ⟨heq.ge, fun k _ hk => heq ▸ hk⟩⟩
    · have hno : ∀ k ∈ r :: rs, bs.value < k.blockSize.value := fun k hk => hlt.trans_le (hr k hk)
      cases prev with
      | none => exact ⟨mem_cons_self, .inr fun k hk => ⟨hno k hk, hr k hk⟩⟩
      | some p =>
        refine ⟨by simp, .inl ⟨(hprev p rfl).le, fun k hk hle => ?_⟩⟩
        rcases mem_append.mp hk with hk | hk
        · rw [mem_singleton.mp hk]
          rfl
        · exact absurd hle (not_le.mpr (hno k hk))
    · have hgt : r.blockSize.value < bs.value := lt_of_le_of_ne (not_lt.mp hlt) (Ne.symm heq)
      obtain ⟨hmem, hcases⟩ := ih (some r) (fun p hp => by cases hp; exact hgt) hrs (by simp)
      refine ⟨mem_append_right _ hmem, ?_⟩
      rcases hcases with ⟨hle, hmax⟩ | hall
      · refine .inl ⟨hle, fun k hk hkle => ?_⟩
        rcases mem_append.mp hk with hk | hk
        · exact (hpre k hk r mem_cons_self).trans (hmax r mem_cons_self hgt.le)
        · exact hmax k hk hkle
      · exact absurd (hall r mem_cons_self).1 hgt.not_gt

theorem mem_parseMappingRatio [QuantityParser] {ratio : Dict String ℚ} {m : MappingRatio} :
    m ∈ parseMappingRatio ratio ↔ KeptRatio ratio m := by
  simp only [parseMappingRatio, mem_map, Dict.mem_sortedVals]
  constructor
  · rintro ⟨key, ⟨q, r, hq, hkey⟩, rfl⟩
    unfold ratioKey at hkey
    split at hkey
    · rename_i bs hbs
      split_ifs at hkey with hr
      cases hkey
      exact ⟨q, hq, hbs, not_le.mp hr⟩
    · cases hkey
  · rintro ⟨q, hq, hbs, hr⟩
    refine ⟨toLex (m.blockSize.value, toLex (m.ratio, m.blockSize.asInt64)), ⟨q, _, hq, ?_⟩, rfl⟩
    simp only [ratioKey, hbs, if_neg hr.not_ge]

/-- A block size is looked up to the right entry, or to 32k with ratio 1 if the table has none. -/
theorem looked_findMappingRatio [QuantityParser] (ratio : Dict String ℚ) (bs : Amount) :
    ((∃ m, KeptRatio ratio m) →
        Looked (KeptRatio ratio) bs.value (findMappingRatio bs (parseMappingRatio ratio))) ∧
      ((¬ ∃ m, KeptRatio ratio m) →
        findMappingRatio bs (parseMappingRatio ratio) = ⟨⟨32000, some 32000⟩, 1⟩) := by
  have hkept : KeptRatio ratio = (· ∈ parseMappingRatio ratio) :=
    funext fun m => propext mem_parseMappingRatio.symm
  rw [hkept]
  refine ⟨fun ⟨m, hm⟩ => ?_, fun hno => ?_⟩
  · have hsorted : (parseMappingRatio ratio).Pairwise (·.blockSize.value ≤ ·.blockSize.value) :=
      pairwise_map.mpr ((Dict.pairwise_sortedVals ratioKey ratio).imp (Prod.Lex.monotone_fst _ _))
    exact looked_findRatioFrom none (fun p hp => by cases hp) hsorted (ne_nil_of_mem hm)
  · rw [eq_nil_iff_forall_not_mem.mpr fun m hm => hno ⟨m, hm⟩]
    rfl

end IOIsolation.Sched.BlockIo
