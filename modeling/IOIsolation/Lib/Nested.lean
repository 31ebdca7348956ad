import IOIsolation.Lib.Dict
import Mathlib.Data.List.Nodup

/-!
# Lib.Nested

Maps of maps: a value behind a pair of keys (`get`), entered into an inner map that is made when it is
missing (`put`). Two nested loops list such a map in the orders they go through it (`entries`).

* `entries_perm` — a map filled from a list with distinct pairs of keys is listed as that list, in some
  order.
-/

namespace IOIsolation.Lib.Nested

open List

variable {K L V : Type} [DecidableEq K] [DecidableEq L]

def get (m : Dict K (Dict L V)) (k : K) (l : L) : Option V := (m.lookup k).bind (·.lookup l)

def put (m : Dict K (Dict L V)) (k : K) (l : L) (v : V) : Dict K (Dict L V) :=
  m.insert k (((m.lookup k).getD ∅).insert l v)

theorem get_put (m : Dict K (Dict L V)) (k k' : K) (l l' : L) (v : V) :
    get (put m k l v) k' l' = if (k', l') = (k, l) then some v else get m k' l' := by
  unfold get put
  rw [Dict.lookup_insert_ite]
  by_cases hk : k' = k
  · subst hk
    rw [if_pos rfl, Option.bind_some, Dict.lookup_insert_ite]
    by_cases hl : l' = l
    · simp [hl]
    · cases hm : m.lookup k' <;> simp [hl]
  · simp [hk]

def fill (es : List (K × L × V)) (m : Dict K (Dict L V)) : Dict K (Dict L V) :=
  es.foldl (fun m e => put m e.1 e.2.1 e.2.2) m

theorem fill_append (es es' : List (K × L × V)) (m : Dict K (Dict L V)) :
    fill (es ++ es') m = fill es' (fill es m) :=
  foldl_append

variable {es : List (K × L × V)} {a : AList fun _ : K => AList fun _ : L => V}

theorem get_fill (h : (es.map fun e => (e.1, e.2.1)).Nodup) (m : Dict K (Dict L V)) (k : K) (l : L)
    (v : V) :
    get (fill es m) k l = some v ↔
      (k, l, v) ∈ es ∨ (∀ e ∈ es, (e.1, e.2.1) ≠ (k, l)) ∧ get m k l = some v := by
  induction es generalizing m with
  | nil => simp [fill]
  | cons e es ih =>
    obtain ⟨he, hes⟩ := nodup_cons.mp h
    obtain ⟨a, b, c⟩ := e
    rw [fill, foldl_cons]
    rw [← fill, ih hes, get_put, mem_cons, forall_mem_cons]
    by_cases hkey : (k, l) = (a, b)
    · cases hkey
      -- no later entry has the same keys
      have hlater : ∀ e ∈ es, (e.1, e.2.1) ≠ (k, l) := fun e hmem heq =>
        he (mem_map.mpr ⟨e, hmem, heq⟩)
      have hnot : (k, l, v) ∉ es := fun hmem => hlater _ hmem rfl
      rw [if_pos rfl, Option.some.injEq]
      constructor
      · rintro (hmem | ⟨-, rfl⟩)
        · exact absurd hmem hnot
        · exact .inl (.inl rfl)
      · rintro ((heq | hmem) | ⟨⟨hne, -⟩, -⟩)
        · cases heq
          exact .inr ⟨hlater, rfl⟩
        · exact absurd hmem hnot
        · exact absurd rfl hne
    · have hne : (k, l, v) ≠ (a, b, c) := fun heq => hkey (by cases heq; rfl)
      have hkey' : (a, b) ≠ (k, l) := fun heq => hkey heq.symm
      simp only [if_neg hkey, hne, hkey', false_or, ne_eq, not_false_eq_true, true_and]

def entries (a : AList fun _ : K => AList fun _ : L => V) : List (K × L × V) :=
  a.entries.flatMap fun x => x.2.entries.map fun y => (x.1, y.1, y.2)

def toNested (a : AList fun _ : K => AList fun _ : L => V) : Dict K (Dict L V) :=
  (Dict.mapEntries AList.toFinmap a).toFinmap

theorem get_toNested (a : AList fun _ : K => AList fun _ : L => V) (k : K) (l : L) :
    get (toNested a) k l = (a.lookup k).bind (·.lookup l) := by
  rw [get, toNested, Finmap.lookup_toFinmap, Dict.lookup_mapEntries]
  cases a.lookup k <;> rfl

theorem mem_entries {k : K} {l : L} {v : V} :
    (k, l, v) ∈ entries a ↔ get (toNested a) k l = some v := by
  rw [get_toNested, Option.bind_eq_some_iff]
  simp only [entries, mem_flatMap, mem_map]
  constructor
  · rintro ⟨⟨k', d⟩, hk, ⟨l', v'⟩, hl, heq⟩
    cases heq
    exact ⟨d, AList.mem_lookup_iff.mpr hk, AList.mem_lookup_iff.mpr hl⟩
  · rintro ⟨d, hk, hl⟩
    exact ⟨⟨k, d⟩, AList.mem_lookup_iff.mp hk, ⟨l, v⟩, AList.mem_lookup_iff.mp hl, rfl⟩

omit [DecidableEq K] [DecidableEq L] in
theorem entries_nodup (a : AList fun _ : K => AList fun _ : L => V) : (entries a).Nodup := by
  rw [entries, nodup_flatMap]
  constructor
  · rintro ⟨k, d⟩ -
    refine List.Nodup.map ?_ d.nodupKeys.nodup
    rintro ⟨l, v⟩ ⟨l', v'⟩ heq
    cases heq
    rfl
  · refine (nodupKeys_iff_pairwise.mp a.nodupKeys).imp ?_
    intro x y hne e hx hy
    obtain ⟨_, -, rfl⟩ := mem_map.mp hx
    obtain ⟨_, -, heq⟩ := mem_map.mp hy
    exact hne (congrArg Prod.fst heq).symm

theorem entries_perm (h : (es.map fun e => (e.1, e.2.1)).Nodup) (ha : toNested a = fill es ∅) :
    (entries a).Perm es := by
  refine (perm_ext_iff_of_nodup (entries_nodup a) h.of_map).mpr ?_
  rintro ⟨k, l, v⟩
  rw [mem_entries, ha, get_fill h]
  simp [get]

end IOIsolation.Lib.Nested
