import Mathlib.Data.Finmap
import Mathlib.Algebra.BigOperators.Group.Multiset.Basic
import Mathlib.Algebra.Order.BigOperators.Group.Multiset
import Mathlib.Algebra.Order.BigOperators.Group.Finset
import Mathlib.Tactic.Abel
import Mathlib.Data.List.Sort

/-!
# Lib.Dict

Finite maps with one value type: `Finmap` with the things a program does to a map of
records besides inserting and erasing. It changes the record behind one key (`adjust`), it
rewrites every record in a loop over the map and leaves some out (`mapVals`, `filterMapVals`,
`without`), and it adds up a quantity over all entries (`total`), where the order of the loop does not
matter. It is filled from a list of records and gone through again in any order (`Stores`, `listing`).
-/

namespace IOIsolation.Lib

open Finmap Option

abbrev Dict (K V : Type) : Type := Finmap (fun _ : K => V)

namespace Dict

variable {K V W G : Type} [DecidableEq K] {k : K} {m : Dict K V} {v : V} {r : K → Prop}
  {key : V → K} {l : List V}

theorem insert_erase (h : m.lookup k = some v) : (m.erase k).insert k v = m := by
  apply ext_lookup
  intro x
  by_cases hx : x = k
  · subst hx; simp [h]
  · simp [hx]

theorem erase_insert (h : k ∉ m) : (m.insert k v).erase k = m := by
  apply ext_lookup
  intro x
  by_cases hx : x = k
  · subst hx; simp [lookup_eq_none.mpr h]
  · simp [hx]

theorem lookup_insert_ite (k x : K) (v : V) (m : Dict K V) :
    (m.insert k v).lookup x = if x = k then some v else m.lookup x := by
  by_cases hx : x = k
  · subst hx; simp
  · simp [hx]

theorem lookup_erase_ite (k x : K) (m : Dict K V) :
    (m.erase k).lookup x = if x = k then none else m.lookup x := by
  by_cases hx : x = k
  · subst hx; simp
  · simp [hx]

theorem eq_empty (h : ∀ k, k ∉ m) : m = ∅ := by
  apply ext_lookup
  intro k
  rw [lookup_empty, lookup_eq_none.mpr (h k)]

theorem erase_of_lookup_none (h : m.lookup k = none) : m.erase k = m := by
  apply ext_lookup
  intro x
  by_cases hx : x = k
  · subst hx; simp [h]
  · simp [hx]

variable {w : V} {x : K} {m' : Dict K V} {q : K → Prop}

theorem eq_of_lookup_singleton (h : (singleton k v : Dict K V).lookup x = some w) :
    x = k ∧ w = v := by
  obtain rfl := (mem_singleton _ _ _).mp (mem_of_lookup_eq_some h)
  rw [lookup_singleton_eq, some.injEq] at h
  exact ⟨rfl, h.symm⟩

theorem ne_empty_of_lookup (h : m.lookup k = some v) : m ≠ ∅ := by
  rintro rfl
  cases h

theorem insert_lookup (h : m.lookup k = some v) : m.insert k v = m := by
  apply ext_lookup
  intro x
  rw [lookup_insert_ite]
  split_ifs with hx
  · rw [hx, h]
  · rfl

theorem insert_eq_self_iff (h : m.lookup k = some v) : m.insert k w = m ↔ w = v := by
  constructor
  · intro heq
    have hl := congrArg (lookup k) heq
    rw [lookup_insert, h, some.injEq] at hl
    exact hl
  · rintro rfl
    exact insert_lookup h

/-- `m'` is `m` with the entries of the relation `r` written over it. -/
structure Overlays (r : K → V → Prop) (m m' : Dict K V) : Prop where
  entered : ∀ k v, r k v → m'.lookup k = some v
  kept : ∀ k, (∀ v, ¬ r k v) → m'.lookup k = m.lookup k

theorem Overlays.none {r : K → V → Prop} (h : ∀ k v, ¬ r k v) : Overlays r m m :=
  ⟨fun k v hr => absurd hr (h k v), fun _ _ => rfl⟩

theorem Overlays.lookup_iff {r : K → V → Prop} (h : Overlays r ∅ m) (k : K) (v : V) :
    m.lookup k = some v ↔ r k v := by
  refine ⟨fun hk => ?_, h.entered k v⟩
  by_cases hsome : ∃ w, r k w
  · obtain ⟨w, hw⟩ := hsome
    rw [h.entered k w hw, some.injEq] at hk
    exact hk ▸ hw
  · rw [h.kept k (not_exists.mp hsome), lookup_empty] at hk
    cases hk

/-- Entries written over a map that has one more entry. -/
theorem Overlays.insert {r q : K → V → Prop} (h : Overlays r (m.insert k v) m')
    (hsame : ∀ w, r k w → w = v) (hq : ∀ x w, q x w ↔ x = k ∧ w = v ∨ r x w) :
    Overlays q m m' := by
  constructor
  · intro x w hx
    rcases (hq x w).mp hx with ⟨rfl, rfl⟩ | hr
    · by_cases hlater : ∃ w', r x w'
      · obtain ⟨w', hr⟩ := hlater
        rw [h.entered x w' hr, hsame w' hr]
      · rw [h.kept x (not_exists.mp hlater), lookup_insert]
    · exact h.entered x w hr
  · intro x hno
    have hne : x ≠ k := fun heq => hno v ((hq x v).mpr (.inl ⟨heq, rfl⟩))
    rw [h.kept x fun w hr => hno w ((hq x w).mpr (.inr hr)), lookup_insert_of_ne _ hne]

/-- `m'` is `m` without the keys of `r`. -/
structure Erases (r : K → Prop) (m m' : Dict K V) : Prop where
  dropped : ∀ k, r k → m'.lookup k = none
  kept : ∀ k, ¬ r k → m'.lookup k = m.lookup k

theorem Erases.refl (h : ∀ k, ¬ r k) : Erases r m m :=
  ⟨fun k hk => absurd hk (h k), fun _ _ => rfl⟩

theorem Erases.trans {m'' : Dict K V} (h : Erases r m m') (h' : Erases q m' m'') :
    Erases (fun k => r k ∨ q k) m m'' := by
  constructor
  · intro k hk
    by_cases hq : q k
    · exact h'.dropped k hq
    · rw [h'.kept k hq]
      exact h.dropped k (hk.resolve_right hq)
  · intro k hk
    rw [h'.kept k fun hq => hk (.inr hq), h.kept k fun hr => hk (.inl hr)]

theorem Erases.congr (h : Erases r m m') (hiff : ∀ k, q k ↔ r k) : Erases q m m' :=
  ⟨fun k hk => h.dropped k ((hiff k).mp hk), fun k hk => h.kept k fun hr => hk ((hiff k).mpr hr)⟩

theorem erases_erase (key : K) (m : Dict K V) : Erases (· = key) m (m.erase key) :=
  ⟨fun k hk => by rw [lookup_erase_ite, if_pos hk], fun k hk => by rw [lookup_erase_ite, if_neg hk]⟩

/-! ## Changing one record -/

/-- Apply `f` to the value behind `k`; a missing key changes nothing. -/
def adjust (k : K) (f : V → V) (m : Dict K V) : Dict K V :=
  match m.lookup k with
  | some v => m.insert k (f v)
  | none => m

theorem lookup_adjust (k x : K) (f : V → V) (m : Dict K V) :
    (adjust k f m).lookup x = if x = k then (m.lookup k).map f else m.lookup x := by
  unfold adjust
  cases h : m.lookup k with
  | none =>
    by_cases hx : x = k
    · subst hx; simp [h]
    · simp [hx]
  | some v => rw [lookup_insert_ite]; rfl

@[simp] theorem lookup_adjust_self (k : K) (f : V → V) (m : Dict K V) :
    (adjust k f m).lookup k = (m.lookup k).map f := by
  simp [lookup_adjust]

theorem lookup_adjust_ne (h : x ≠ k) (f : V → V) (m : Dict K V) :
    (adjust k f m).lookup x = m.lookup x := by
  simp [lookup_adjust, h]

theorem lookup_foldl_adjust {l : List (Σ _ : K, W)} (h : l.NodupKeys) (f : W → V → V) (m : Dict K V)
    (x : K) :
    (l.foldl (fun m e => adjust e.1 (f e.2) m) m).lookup x =
      (m.lookup x).map fun v => ((l.dlookup x).map fun w => f w v).getD v := by
  induction l generalizing m with
  | nil => simp
  | cons e l ih =>
    obtain ⟨k, w⟩ := e
    rw [List.nodupKeys_cons] at h
    rw [List.foldl_cons, ih h.2, lookup_adjust]
    by_cases hx : x = k
    · subst hx
      rw [if_pos rfl, List.dlookup_cons_eq, List.dlookup_eq_none.mpr h.1, map_map]
      rfl
    · rw [if_neg hx, List.dlookup_cons_ne _ _ hx]

/-! ## Rewriting every record -/

/-- Replace the value `v` behind each key `k` by `f k v`. -/
def mapVals (f : K → V → W) (m : Dict K V) : Dict K W :=
  ⟨m.entries.map fun e => ⟨e.1, f e.1 e.2⟩, by
    have h := m.nodupKeys.nodup_keys
    apply Multiset.nodup_keys.mp
    simpa [Multiset.keys, Multiset.map_map, Function.comp_def] using h⟩

theorem lookup_mapVals (f : K → V → W) (m : Dict K V) (x : K) :
    (mapVals f m).lookup x = (m.lookup x).map (f x) := by
  ext w
  rw [← Option.mem_def, ← Option.mem_def, mem_lookup_iff, Option.mem_map]
  simp only [mapVals, Multiset.mem_map, mem_lookup_iff]
  constructor
  · rintro ⟨⟨k, v⟩, hmem, heq⟩
    cases heq
    exact ⟨v, hmem, rfl⟩
  · rintro ⟨v, hmem, rfl⟩
    exact ⟨⟨x, v⟩, hmem, rfl⟩

theorem keys_mapVals (f : K → V → W) (m : Dict K V) : (mapVals f m).keys = m.keys := by
  ext x
  rw [mem_keys, mem_keys, ← lookup_isSome, lookup_mapVals, isSome_map, lookup_isSome]

/-- Replace the value `v` behind each key `k` by `f k v`, and leave the key out where `f` has no
value. -/
def filterMapVals (f : K → V → Option W) (m : Dict K V) : Dict K W :=
  ⟨m.entries.filterMap fun e => (f e.1 e.2).map fun w => ⟨e.1, w⟩, by
    have h := m.nodupKeys.nodup_keys
    apply Multiset.nodup_keys.mp
    refine Multiset.nodup_of_le ?_ h
    induction m.entries using Multiset.induction_on with
    | empty => simp [Multiset.keys]
    | cons e s ih =>
      cases hf : f e.1 e.2 with
      | none =>
        rw [Multiset.filterMap_cons_none _ _ (by simp [hf])]
        simpa [Multiset.keys] using ih.trans (Multiset.le_cons_self _ e.1)
      | some w =>
        rw [Multiset.filterMap_cons_some _ _ _ (b := ⟨e.1, w⟩) (by simp [hf])]
        simpa [Multiset.keys] using ih⟩

theorem lookup_filterMapVals (f : K → V → Option W) (m : Dict K V) (x : K) :
    (filterMapVals f m).lookup x = (m.lookup x).bind (f x) := by
  ext w
  rw [← Option.mem_def, ← Option.mem_def, mem_lookup_iff, Option.mem_bind_iff]
  simp only [filterMapVals, Multiset.mem_filterMap, mem_lookup_iff, Option.map_eq_some_iff]
  constructor
  · rintro ⟨⟨k, v⟩, hmem, w', hw, heq⟩
    cases heq
    exact ⟨v, hmem, hw⟩
  · rintro ⟨v, hmem, hw⟩
    exact ⟨⟨x, v⟩, hmem, w, hw, rfl⟩

def without (m : Dict K V) (n : Dict K W) : Dict K V :=
  filterMapVals (fun k v => if k ∈ n then none else some v) m

theorem lookup_without (m : Dict K V) (n : Dict K W) (x : K) :
    (without m n).lookup x = if x ∈ n then none else m.lookup x := by
  rw [without, lookup_filterMapVals]
  split_ifs <;> simp

theorem keys_without (m : Dict K V) (n : Dict K W) : (without m n).keys = m.keys \ n.keys := by
  ext x
  rw [mem_keys, ← lookup_isSome, lookup_without, Finset.mem_sdiff, mem_keys, mem_keys]
  split_ifs with h
  · simp [h]
  · simp [h, lookup_isSome]

theorem lookup_union_ite (m n : Dict K V) (x : K) :
    (m ∪ n).lookup x = if x ∈ m then m.lookup x else n.lookup x := by
  split_ifs with h
  · exact lookup_union_left h
  · exact lookup_union_right h

theorem singleton_union (k : K) (v : V) (m : Dict K V) : singleton k v ∪ m = m.insert k v := by
  apply ext_lookup
  intro x
  by_cases hx : x = k
  · subst hx
    rw [lookup_insert, lookup_union_left ((mem_singleton _ _ _).mpr rfl), lookup_singleton_eq]
  · rw [lookup_insert_of_ne _ hx, lookup_union_right fun hmem => hx ((mem_singleton _ _ _).mp hmem)]

/-- The entries of both maps; `f` combines the values of a key both have. -/
def unionWith (f : V → V → V) (m n : Dict K V) : Dict K V :=
  mapVals (fun k v => ((n.lookup k).map (f v)).getD v) m ∪ n

theorem lookup_unionWith (f : V → V → V) (m n : Dict K V) (x : K) :
    (unionWith f m n).lookup x =
      match m.lookup x with
      | some v => some (((n.lookup x).map (f v)).getD v)
      | none => n.lookup x := by
  cases h : m.lookup x with
  | none =>
    have hnot : x ∉ mapVals (fun k v => ((n.lookup k).map (f v)).getD v) m := by
      rw [← lookup_eq_none, lookup_mapVals, h, map_none]
    rw [unionWith, lookup_union_right hnot]
  | some v =>
    have hl : (mapVals (fun k v => ((n.lookup k).map (f v)).getD v) m).lookup x =
        some (((n.lookup x).map (f v)).getD v) := by
      rw [lookup_mapVals, h, map_some]
    rw [unionWith, lookup_union_left (mem_of_lookup_eq_some hl), hl]

theorem keys_insert_of_mem (h : k ∈ m) (v : V) : (m.insert k v).keys = m.keys := by
  ext x
  rw [mem_keys, mem_keys, mem_insert]
  exact ⟨fun hx => hx.elim (fun heq => heq ▸ h) id, .inr⟩

theorem keys_adjust (k : K) (f : V → V) (m : Dict K V) : (adjust k f m).keys = m.keys := by
  unfold adjust
  cases h : m.lookup k with
  | none => rfl
  | some v =>
    have hmem : k ∈ m := by
      rw [← lookup_isSome, h]
      rfl
    exact keys_insert_of_mem hmem _

/-- The values `f` picks from the entries, in ascending order. -/
def sortedVals {A : Type} [LinearOrder A] (f : K → V → Option A) (m : Dict K V) : List A :=
  Quotient.liftOn m.entries
    (fun l => (l.filterMap fun e => f e.1 e.2).insertionSort (· ≤ ·)) (by
      intro l l' h
      have hperm := (List.perm_insertionSort (· ≤ ·) (l.filterMap fun e => f e.1 e.2)).trans
        ((h.filterMap _).trans (List.perm_insertionSort (· ≤ ·) _).symm)
      exact hperm.eq_of_pairwise' (List.pairwise_insertionSort _ _)
        (List.pairwise_insertionSort _ _))

theorem mem_sortedVals {A : Type} [LinearOrder A] {f : K → V → Option A} {x : A} :
    x ∈ sortedVals f m ↔ ∃ k v, m.lookup k = some v ∧ f k v = some x := by
  induction m using Finmap.induction_on with
  | H a =>
    have hmem : x ∈ sortedVals f a.toFinmap ↔
        x ∈ (a.entries.filterMap fun e => f e.1 e.2).insertionSort (· ≤ ·) := Iff.rfl
    simp [hmem, ← AList.mem_lookup_iff]

omit [DecidableEq K] in
theorem pairwise_sortedVals {A : Type} [LinearOrder A] (f : K → V → Option A) (m : Dict K V) :
    (sortedVals f m).Pairwise (· ≤ ·) := by
  induction m using Finmap.induction_on with
  | H a => exact List.pairwise_insertionSort _ _

/-! ## Adding up over all entries -/

def total [AddCommMonoid G] (f : K → V → G) (m : Dict K V) : G :=
  (m.entries.map fun e => f e.1 e.2).sum

section Total

variable [AddCommMonoid G] {f g : K → V → G}

omit [DecidableEq K] in
@[simp] theorem total_empty : total f (∅ : Dict K V) = 0 := rfl

theorem total_insert (h : k ∉ m) : total f (m.insert k v) = f k v + total f m := by
  simp [total, entries_insert_of_notMem h]

theorem total_eq_erase (h : m.lookup k = some v) :
    total f m = f k v + total f (m.erase k) := by
  have := total_insert (f := f) (v := v) (notMem_erase_self (a := k) (s := m))
  rw [insert_erase h] at this
  exact this

theorem total_congr (h : ∀ k v, m.lookup k = some v → f k v = g k v) : total f m = total g m := by
  unfold total
  congr 1
  apply Multiset.map_congr rfl
  rintro ⟨k, v⟩ hmem
  exact h k v (mem_lookup_iff.mpr hmem)

theorem total_eq_of_lookup
    (h : ∀ k, (m.lookup k).map (f k) = (m'.lookup k).map (f k)) : total f m = total f m' := by
  have hvals : mapVals f m = mapVals f m' := by
    apply ext_lookup
    intro k
    rw [lookup_mapVals, lookup_mapVals, h k]
  have hsum : ∀ n : Dict K V, total f n = total (fun _ g => g) (mapVals f n) := by
    intro n
    simp only [total, mapVals, Multiset.map_map, Function.comp_def]
  rw [hsum m, hsum m', hvals]

omit [DecidableEq K] in
theorem total_map {H : Type} [AddCommMonoid H] (φ : G →+ H) (m : Dict K V) :
    φ (total f m) = total (fun k v => φ (f k v)) m := by
  unfold total
  rw [map_multiset_sum, Multiset.map_map]
  rfl

end Total

theorem total_erase [AddCommGroup G] {f : K → V → G} (h : m.lookup k = some v) :
    total f (m.erase k) = total f m - f k v := by
  rw [total_eq_erase h]; abel

/-- Replacing a value changes the sum by the difference. -/
theorem total_replace [AddCommGroup G] {f : K → V → G} (h : m.lookup k = some v) (w : V) :
    total f (m.insert k w) = total f m - f k v + f k w := by
  have hsame : (m.insert k w).erase k = m.erase k := by
    apply ext_lookup
    intro x
    rw [lookup_erase_ite, lookup_erase_ite, lookup_insert_ite]
    split_ifs <;> rfl
  rw [total_eq_erase (lookup_insert m), hsame, total_erase h]
  abel

theorem total_nonneg [AddCommMonoid G] [PartialOrder G] [IsOrderedAddMonoid G] {f : K → V → G}
    (h : ∀ k v, m.lookup k = some v → 0 ≤ f k v) : 0 ≤ total f m := by
  apply Multiset.sum_nonneg
  intro x hx
  obtain ⟨⟨k, v⟩, hmem, rfl⟩ := Multiset.mem_map.mp hx
  exact h k v (mem_lookup_iff.mpr hmem)

/-! ### Sums as sums over keys

With a missing entry counted as zero, sums over different maps are compared key by key. -/

section Keys

variable [AddCommMonoid G] {f : K → V → G}

theorem total_eq_sum {S : Finset K} (h : m.keys ⊆ S) :
    total f m = ∑ k ∈ S, (m.lookup k).elim 0 (f k) := by
  induction S using Finset.induction_on generalizing m with
  | empty =>
    have hm : m = ∅ :=
      eq_empty fun k hk => absurd (h (mem_keys.mpr hk)) (Finset.notMem_empty k)
    rw [hm, Finset.sum_empty, total_empty]
  | insert a S ha ih =>
    rw [Finset.sum_insert ha]
    cases hl : m.lookup a with
    | none =>
      rw [elim_none, zero_add]
      refine ih fun k hk => ?_
      rcases Finset.mem_insert.mp (h hk) with rfl | hk'
      · exact absurd (mem_keys.mp hk) (lookup_eq_none.mp hl)
      · exact hk'
    | some v =>
      rw [total_eq_erase hl, elim_some, ih (m := m.erase a)]
      · congr 1
        refine Finset.sum_congr rfl fun k hk => ?_
        rw [lookup_erase_ite, if_neg (ne_of_mem_of_not_mem hk ha)]
      · intro k hk
        obtain ⟨hne, hmem⟩ := mem_erase.mp (mem_keys.mp hk)
        exact Finset.mem_of_mem_insert_of_ne (h (mem_keys.mpr hmem)) hne

variable {n : Dict K W}

theorem total_eq_of_amounts {g : K → W → G}
    (h : ∀ k, (m.lookup k).elim 0 (f k) = (n.lookup k).elim 0 (g k)) : total f m = total g n := by
  rw [total_eq_sum Finset.subset_union_left, total_eq_sum Finset.subset_union_right]
  exact Finset.sum_congr rfl fun k _ => h k

theorem total_le [PartialOrder G] [IsOrderedAddMonoid G]
    (h : ∀ k, (m'.lookup k).elim 0 (f k) ≤ (m.lookup k).elim 0 (f k)) : total f m' ≤ total f m := by
  rw [total_eq_sum Finset.subset_union_left, total_eq_sum Finset.subset_union_right]
  exact Finset.sum_le_sum fun k _ => h k

theorem total_le_add [PartialOrder G] [IsOrderedAddMonoid G] {g : K → W → G}
    (h : ∀ k, (m'.lookup k).elim 0 (f k) ≤ (m.lookup k).elim 0 (f k) + (n.lookup k).elim 0 (g k)) :
    total f m' ≤ total f m + total g n := by
  have hm' : m'.keys ⊆ m'.keys ∪ (m.keys ∪ n.keys) := Finset.subset_union_left
  have hm : m.keys ⊆ m'.keys ∪ (m.keys ∪ n.keys) :=
    Finset.subset_union_left.trans Finset.subset_union_right
  have hn : n.keys ⊆ m'.keys ∪ (m.keys ∪ n.keys) :=
    Finset.subset_union_right.trans Finset.subset_union_right
  rw [total_eq_sum hm', total_eq_sum hm, total_eq_sum hn, ← Finset.sum_add_distrib]
  exact Finset.sum_le_sum fun k _ => h k

end Keys

theorem total_update [AddCommGroup G] {f : K → V → G} {g : K → W → G} {n : Dict K W} (key : K)
    (h : ∀ k, k ≠ key → (m.lookup k).elim 0 (f k) = (n.lookup k).elim 0 (g k)) :
    total g n = total f m + ((n.lookup key).elim 0 (g key) - (m.lookup key).elim 0 (f key)) := by
  have hm : m.keys ⊆ insert key (m.keys ∪ n.keys) :=
    Finset.subset_union_left.trans (Finset.subset_insert _ _)
  have hn : n.keys ⊆ insert key (m.keys ∪ n.keys) :=
    Finset.subset_union_right.trans (Finset.subset_insert _ _)
  have hkey := Finset.mem_insert_self key (m.keys ∪ n.keys)
  rw [total_eq_sum hm, total_eq_sum hn, ← Finset.add_sum_erase _ _ hkey,
    ← Finset.add_sum_erase _ (fun k => (m.lookup k).elim 0 (f k)) hkey,
    Finset.sum_congr rfl fun k hk => h k (Finset.ne_of_mem_erase hk)]
  abel

/-! ## Going through a map, and filling it from a list -/

/-- All keys of a map, each once: an order in which a loop may go through it. -/
def Lists (order : List K) (m : Dict K V) : Prop := order.Nodup ∧ order.toFinset = m.keys

instance (order : List K) (m : Dict K V) : Decidable (Lists order m) :=
  inferInstanceAs (Decidable (_ ∧ _))

def listing (order : List K) (m : Dict K V) : List V := order.filterMap m.lookup

/-- The map has exactly the records of the list, each under its own key. -/
structure Stores (key : V → K) (l : List V) (m : Dict K V) : Prop where
  nodup : (l.map key).Nodup
  lookup_iff : ∀ k v, m.lookup k = some v ↔ v ∈ l ∧ key v = k

theorem Stores.perm {l' : List V} (h : Stores key l m) (hp : l'.Perm l) : Stores key l' m where
  nodup := (hp.map key).nodup_iff.mpr h.nodup
  lookup_iff k v := by rw [h.lookup_iff, hp.mem_iff]

theorem stores_nil : Stores key [] (∅ : Dict K V) := ⟨List.nodup_nil, by simp⟩

/-- Whatever the order, a loop over the map finds the records of the list. -/
theorem Stores.listing_perm (h : Stores key l m) {order : List K} (ho : Lists order m) :
    (listing order m).Perm l := by
  have hnodup : (listing order m).Nodup := by
    refine List.Nodup.filterMap (fun k k' v hk hk' => ?_) ho.1
    rw [← ((h.lookup_iff k v).mp hk).2, ((h.lookup_iff k' v).mp hk').2]
  refine (List.perm_ext_iff_of_nodup hnodup h.nodup.of_map).mpr fun v => ?_
  simp only [listing, List.mem_filterMap]
  constructor
  · rintro ⟨k, -, hk⟩
    exact ((h.lookup_iff k v).mp hk).1
  · intro hv
    have hlook := (h.lookup_iff (key v) v).mpr ⟨hv, rfl⟩
    refine ⟨key v, ?_, hlook⟩
    rw [← List.mem_toFinset, ho.2, mem_keys]
    exact mem_of_lookup_eq_some hlook

theorem lookup_foldl_insert :
    ∀ {l : List V} {m : Dict K V}, (l.map key).Nodup → (∀ v ∈ l, m.lookup (key v) = none) →
      ∀ k v, (l.foldl (fun m v => m.insert (key v) v) m).lookup k = some v ↔
        (v ∈ l ∧ key v = k) ∨ m.lookup k = some v := by
  intro l
  induction l with
  | nil => intro m _ _ k v; simp
  | cons a l ih =>
    intro m hl hm k v
    obtain ⟨ha, hl⟩ := List.nodup_cons.mp hl
    have hne : ∀ x ∈ l, key x ≠ key a := fun x hx heq => ha (heq ▸ List.mem_map_of_mem hx)
    have hnone : ∀ x ∈ l, (m.insert (key a) a).lookup (key x) = none := by
      intro x hx
      rw [lookup_insert_ite, if_neg (hne x hx)]
      exact hm x (List.mem_cons_of_mem a hx)
    rw [List.foldl_cons, ih hl hnone k v, lookup_insert_ite, List.mem_cons]
    by_cases hk : k = key a
    · subst hk
      rw [if_pos rfl, hm a List.mem_cons_self]
      simp only [reduceCtorEq, or_false, some.injEq]
      constructor
      · rintro (⟨hv, heq⟩ | rfl)
        · exact ⟨.inr hv, heq⟩
        · exact ⟨.inl rfl, rfl⟩
      · rintro ⟨rfl | hv, heq⟩
        · exact .inr rfl
        · exact .inl ⟨hv, heq⟩
    · rw [if_neg hk]
      constructor
      · rintro (⟨hv, heq⟩ | hm)
        · exact .inl ⟨.inr hv, heq⟩
        · exact .inr hm
      · rintro (⟨rfl | hv, heq⟩ | hm)
        · exact absurd heq.symm hk
        · exact .inl ⟨hv, heq⟩
        · exact .inr hm

/-- A map filled from a list of records with different keys has exactly these records. -/
theorem stores_foldl_insert (h : (l.map key).Nodup) :
    Stores key l (l.foldl (fun m v => m.insert (key v) v) (∅ : Dict K V)) where
  nodup := h
  lookup_iff k v := by
    rw [lookup_foldl_insert h (fun _ _ => lookup_empty _), lookup_empty]
    simp

/-! ## Maps in the order of a loop -/

/-- The values behind the keys changed, the order kept. -/
def mapEntries (f : V → W) (m : AList fun _ : K => V) : AList fun _ : K => W where
  entries := m.entries.map fun x => ⟨x.1, f x.2⟩
  nodupKeys := by
    have h : (m.entries.map fun x => (⟨x.1, f x.2⟩ : (_ : K) × W)).keys = m.entries.keys := by
      simp [List.keys]
    rw [List.NodupKeys, h]
    exact m.nodupKeys

theorem lookup_mapEntries (f : V → W) (m : AList fun _ : K => V) (k : K) :
    (mapEntries f m).lookup k = (m.lookup k).map f := by
  rcases m with ⟨l, hl⟩
  simp only [AList.lookup, mapEntries]
  clear hl
  induction l with
  | nil => rfl
  | cons x l ih =>
    rcases x with ⟨a, v⟩
    by_cases h : a = k
    · subst h; simp
    · simpa [List.dlookup_cons_ne, Ne.symm h] using ih

end Dict
end IOIsolation.Lib
