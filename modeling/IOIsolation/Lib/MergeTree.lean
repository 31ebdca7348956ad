import IOIsolation.Lib.Dict
import IOIsolation.Lib.Outcome

/-!
# Lib.MergeTree

Folding maps into maps. A loop goes through the entries of one map and enters them into another
(`mergeInto`); on a key both have, the two values are combined, which may fail. A `MergeTree` is any
way to bring single entries together by such loops: in what order, in what groups, and in what order
each loop goes through its map.

* `mergeInto_eq` — the loop is a union, whatever the order.
* `fold_gathers` — what combining keeps between a value and the values it was made of holds behind
  each key, whatever the groups and the orders.
-/

namespace IOIsolation.Lib

open List Dict

variable {K V : Type} [DecidableEq K]

/-- Enter the entries of `n` into `m`, in the order of `ks`. -/
def mergeInto (combine : V → V → Outcome V) (n : Dict K V) :
    List K → Dict K V → Outcome (Dict K V)
  | [], m => .done m
  | k :: ks, m =>
    match n.lookup k with
    | none => mergeInto combine n ks m
    | some v =>
      match m.lookup k with
      | none => mergeInto combine n ks (m.insert k v)
      | some w => do
        let u ← combine w v
        mergeInto combine n ks (m.insert k u)

section Loop

variable {combine : V → V → Outcome V} {f : V → V → V} {m n : Dict K V}

theorem mergeInto_lookup {ks : List K} (hks : ks.Nodup)
    (hf : ∀ k ∈ ks, ∀ w v, m.lookup k = some w → n.lookup k = some v →
      combine w v = .done (f w v)) :
    ∃ m', mergeInto combine n ks m = .done m' ∧
      ∀ k, m'.lookup k = if k ∈ ks then (unionWith f m n).lookup k else m.lookup k := by
  induction ks generalizing m with
  | nil => exact ⟨m, rfl, fun k => by simp⟩
  | cons a ks ih =>
    obtain ⟨ha, hks⟩ := nodup_cons.mp hks
    have hne : ∀ k ∈ ks, k ≠ a := fun k hk heq => ha (heq ▸ hk)
    -- entering a value behind `a` does not touch the keys to come
    have hrest : ∀ u, ∃ m', mergeInto combine n ks (m.insert a u) = .done m' ∧
        ∀ k, m'.lookup k = if k ∈ ks then (unionWith f m n).lookup k
          else if k = a then some u else m.lookup k := by
      intro u
      obtain ⟨m', hm', hl⟩ := ih (m := m.insert a u) hks fun k hk w v hw hv => by
        rw [lookup_insert_ite, if_neg (hne k hk)] at hw
        exact hf k (mem_cons_of_mem a hk) w v hw hv
      refine ⟨m', hm', fun k => ?_⟩
      rw [hl k]
      by_cases hk : k ∈ ks
      · rw [if_pos hk, if_pos hk, lookup_unionWith, lookup_unionWith,
          lookup_insert_ite, if_neg (hne k hk)]
      · rw [if_neg hk, if_neg hk, lookup_insert_ite]
    unfold mergeInto
    cases hn : n.lookup a with
    | none =>
      obtain ⟨m', hm', hl⟩ := ih hks fun k hk => hf k (mem_cons_of_mem a hk)
      refine ⟨m', hm', fun k => ?_⟩
      rw [hl k]
      by_cases hka : k = a
      · subst hka
        rw [if_neg ha, if_pos mem_cons_self, lookup_unionWith, hn]
        cases m.lookup k <;> rfl
      · simp [mem_cons, hka]
    | some v =>
      have hgoal : ∀ u, (unionWith f m n).lookup a = some u →
          ∃ m', mergeInto combine n ks (m.insert a u) = .done m' ∧
            ∀ k, m'.lookup k =
              if k ∈ a :: ks then (unionWith f m n).lookup k else m.lookup k := by
        intro u hu
        obtain ⟨m', hm', hl⟩ := hrest u
        refine ⟨m', hm', fun k => ?_⟩
        rw [hl k]
        by_cases hka : k = a
        · subst hka
          rw [if_neg ha, if_pos rfl, if_pos mem_cons_self, hu]
        · simp [mem_cons, hka]
      cases hm : m.lookup a with
      | none => exact hgoal v (by rw [lookup_unionWith, hm, hn])
      | some w =>
        simp only [hf a mem_cons_self w v hm hn, Outcome.done_bind]
        exact hgoal (f w v) (by rw [lookup_unionWith, hm, hn]; rfl)

/-- Whatever the order of the loop, it makes the union of the two maps. -/
theorem mergeInto_eq {order : List K} (ho : Dict.Lists order n)
    (hf : ∀ k w v, m.lookup k = some w → n.lookup k = some v → combine w v = .done (f w v)) :
    mergeInto combine n order m = .done (unionWith f m n) := by
  obtain ⟨m', hm', hl⟩ := mergeInto_lookup (m := m) (n := n) ho.1 fun k _ => hf k
  rw [hm']
  congr 1
  apply Finmap.ext_lookup
  intro k
  rw [hl k]
  split_ifs with hk
  · rfl
  rw [← mem_toFinset, ho.2, Finmap.mem_keys, ← Finmap.lookup_eq_none] at hk
  rw [lookup_unionWith, hk]
  cases m.lookup k <;> rfl

end Loop

/-- A way to bring entries together: none, a map of one entry, or one map folded into another by a
loop in the order `order`. -/
inductive MergeTree (K V : Type) where
  | empty
  | entry (k : K) (v : V)
  | merge (into other : MergeTree K V) (order : List K)

namespace MergeTree

def leaves : MergeTree K V → List (K × V)
  | empty => []
  | entry k v => [(k, v)]
  | merge l r _ => l.leaves ++ r.leaves

/-- Each loop goes through the keys of its map, each once. -/
def Ordered : MergeTree K V → Prop
  | empty => True
  | entry _ _ => True
  | merge l r order =>
    l.Ordered ∧ r.Ordered ∧ order.Nodup ∧ order.toFinset = (r.leaves.map Prod.fst).toFinset

def fold (combine : V → V → Outcome V) : MergeTree K V → Outcome (Dict K V)
  | empty => .done ∅
  | entry k v => .done (Finmap.singleton k v)
  | merge l r order => do
    let m ← l.fold combine
    let n ← r.fold combine
    mergeInto combine n order m

/-- The values of the entries with the key `k`. -/
def under (k : K) (l : List (K × V)) : List V := (l.filter fun e => e.1 = k).map Prod.snd

theorem under_append (k : K) (l r : List (K × V)) : under k (l ++ r) = under k l ++ under k r := by
  simp [under]

variable {l : List (K × V)}

theorem under_eq_nil {k : K} : under k l = [] ↔ k ∉ l.map Prod.fst := by
  simp only [under, map_eq_nil_iff, filter_eq_nil_iff, decide_eq_true_eq, mem_map,
    not_exists, not_and]

section Gathers

/-- What is behind a key after `vs` have been brought together there: nothing if there were none, and
otherwise a value that `R` relates to them. -/
def Gathers (R : V → List V → Prop) (entry : Option V) (vs : List V) : Prop :=
  match entry with
  | none => vs = []
  | some v => vs ≠ [] ∧ R v vs

variable {R : V → List V → Prop} {combine : V → V → Outcome V} {f : V → V → V} {m : Dict K V}

theorem Gathers.union {n : Dict K V} {k : K} {vs ws : List V}
    (hR : ∀ v vs w ws, R v vs → R w ws → R (f v w) (vs ++ ws)) (hm : Gathers R (m.lookup k) vs)
    (hn : Gathers R (n.lookup k) ws) : Gathers R ((unionWith f m n).lookup k) (vs ++ ws) := by
  rw [lookup_unionWith]
  cases hv : m.lookup k with
  | none =>
    rw [hv] at hm
    rw [show vs = [] from hm, nil_append]
    exact hn
  | some v =>
    rw [hv] at hm
    cases hw : n.lookup k with
    | none =>
      rw [hw] at hn
      rw [show ws = [] from hn, append_nil]
      exact hm
    | some w =>
      rw [hw] at hn
      exact ⟨append_ne_nil_of_left_ne_nil hm.1 ws, hR v vs w ws hm.2 hn.2⟩

theorem gathers_keys (h : ∀ k, Gathers R (m.lookup k) (under k l)) :
    m.keys = (l.map Prod.fst).toFinset := by
  ext k
  rw [Finmap.mem_keys, mem_toFinset, ← not_iff_not, ← under_eq_nil, ← Finmap.lookup_eq_none]
  have hk := h k
  cases hl : m.lookup k with
  | none =>
    rw [hl] at hk
    exact iff_of_true rfl hk
  | some v =>
    rw [hl] at hk
    exact iff_of_false (Option.some_ne_none v) hk.1

/-- A relation that single entries start with and combining keeps holds behind each key, between its
value and the entries brought together there. -/
theorem fold_gathers (hf : ∀ v vs w ws, R v vs → R w ws → combine v w = .done (f v w))
    (hR : ∀ v vs w ws, R v vs → R w ws → R (f v w) (vs ++ ws))
    {t : MergeTree K V} (ho : t.Ordered) (hl : ∀ e ∈ t.leaves, R e.2 [e.2]) :
    ∃ m, t.fold combine = .done m ∧ ∀ k, Gathers R (m.lookup k) (under k t.leaves) := by
  induction t with
  | empty => exact ⟨∅, rfl, fun k => rfl⟩
  | entry a v =>
    refine ⟨Finmap.singleton a v, rfl, fun k => ?_⟩
    by_cases hk : k = a
    · subst hk
      have hunder : under k (entry k v).leaves = [v] := by simp [under, leaves]
      rw [Finmap.lookup_singleton_eq, hunder]
      exact ⟨cons_ne_nil v [], hl (k, v) (by simp [leaves])⟩
    · rw [Finmap.lookup_eq_none.mpr (by simpa using hk)]
      exact under_eq_nil.mpr (by simpa [leaves] using hk)
  | merge l r order ihl ihr =>
    obtain ⟨hol, hor, hnodup, hkeys⟩ := ho
    obtain ⟨m, hm, hml⟩ := ihl hol fun e he => hl e (mem_append_left _ he)
    obtain ⟨n, hn, hnl⟩ := ihr hor fun e he => hl e (mem_append_right _ he)
    have hlists : Dict.Lists order n := ⟨hnodup, hkeys.trans (gathers_keys hnl).symm⟩
    have hcombine : ∀ k w v, m.lookup k = some w → n.lookup k = some v →
        combine w v = .done (f w v) := by
      intro k w v hw hv
      have hmk := hml k
      have hnk := hnl k
      rw [hw] at hmk
      rw [hv] at hnk
      exact hf w _ v _ hmk.2 hnk.2
    refine ⟨unionWith f m n, ?_, fun k => ?_⟩
    · simp only [fold, hm, hn, Outcome.done_bind]
      exact mergeInto_eq hlists hcombine
    · rw [leaves, under_append]
      exact (hml k).union hR (hnl k)

end Gathers

end MergeTree
end IOIsolation.Lib
