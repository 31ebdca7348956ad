import Mathlib.Data.List.Nodup
import Mathlib.Data.List.Lemmas

/-!
# Lib.KeyedList

Lists of records that are found by a key: the first record of the key is looked up, replaced or
removed, and a record of a new key goes to the end.

* `nodup_put`, `nodup_remove` — no key is there twice.
* `find_eq_some_iff`, `mem_put_iff` — with distinct keys, a record is its key.
-/

namespace IOIsolation.Lib.KeyedList

open List

variable {α κ : Type} [DecidableEq κ] {key : α → κ}

def find (key : α → κ) (k : κ) (l : List α) : Option α := l.find? fun a => key a = k

def put (key : α → κ) (a : α) : List α → List α
  | [] => [a]
  | b :: l => if key b = key a then a :: l else b :: put key a l

def remove (key : α → κ) (k : κ) (l : List α) : List α := l.eraseP fun a => key a = k

variable {a x : α} {k : κ} {l : List α}

theorem mem_of_find (h : find key k l = some a) : a ∈ l :=
  mem_of_find?_eq_some h

theorem key_of_find (h : find key k l = some a) : key a = k := by
  simpa using find?_some h

theorem find_eq_none_iff : find key k l = none ↔ ∀ a ∈ l, key a ≠ k := by
  simp [find, find?_eq_none]

theorem map_put (a : α) (l : List α) :
    (put key a l).map key = if key a ∈ l.map key then l.map key else l.map key ++ [key a] := by
  induction l with
  | nil => simp [put]
  | cons b l ih =>
    unfold put
    by_cases h : key b = key a
    · simp [h]
    rw [if_neg h, map_cons, map_cons, ih]
    have hne : key a ≠ key b := fun e => h e.symm
    simp only [mem_cons, hne, false_or]
    split_ifs <;> rfl

theorem nodup_put (h : (l.map key).Nodup) (a : α) : ((put key a l).map key).Nodup := by
  rw [map_put]
  split_ifs with hmem
  · exact h
  refine nodup_append.mpr ⟨h, nodup_singleton _, ?_⟩
  intro x hx y hy hxy
  rw [mem_singleton] at hy
  exact hmem (hy ▸ hxy ▸ hx)

theorem nodup_remove (h : (l.map key).Nodup) (k : κ) : ((remove key k l).map key).Nodup :=
  (List.Sublist.map key eraseP_sublist).nodup h

theorem mem_of_mem_remove (h : a ∈ remove key k l) : a ∈ l :=
  mem_of_mem_eraseP h

theorem mem_remove_of_ne (h : a ∈ l) (hne : key a ≠ k) : a ∈ remove key k l :=
  (mem_eraseP_of_neg (by simpa using hne)).mpr h

theorem mem_of_mem_put (h : x ∈ put key a l) : x = a ∨ x ∈ l := by
  induction l with
  | nil => exact .inl (mem_singleton.mp h)
  | cons b l ih =>
    unfold put at h
    split_ifs at h with hkey
    · rcases mem_cons.mp h with rfl | h
      · exact .inl rfl
      · exact .inr (mem_cons_of_mem b h)
    · rcases mem_cons.mp h with rfl | h
      · exact .inr mem_cons_self
      · exact (ih h).imp_right (mem_cons_of_mem b)

theorem mem_put_self (a : α) (l : List α) : a ∈ put key a l := by
  induction l with
  | nil => exact mem_singleton_self a
  | cons b l ih =>
    unfold put
    split_ifs
    · exact mem_cons_self
    · exact mem_cons_of_mem b ih

theorem mem_put_of_ne (h : x ∈ l) (hne : key x ≠ key a) : x ∈ put key a l := by
  induction l with
  | nil => cases h
  | cons b l ih =>
    unfold put
    rcases mem_cons.mp h with rfl | h
    · rw [if_neg hne]
      exact mem_cons_self
    split_ifs
    · exact mem_cons_of_mem a h
    · exact mem_cons_of_mem b (ih h)

/-! ## Records seen through a map that keeps the key -/

section Map

variable {β : Type} {key' : β → κ} {f : α → β}

theorem map_put_comp (h : ∀ a, key' (f a) = key a) (a : α) (l : List α) :
    (put key a l).map f = put key' (f a) (l.map f) := by
  induction l with
  | nil => rfl
  | cons b l ih =>
    simp only [put, map_cons, h]
    split_ifs
    · rfl
    · rw [map_cons, ih]

theorem find_map_of_find (h : ∀ a, key' (f a) = key a)
    (hfind : find key k l = some a) : find key' k (l.map f) = some (f a) := by
  have hcomp : (fun b => decide (key' b = k)) ∘ f = fun a => decide (key a = k) := by
    funext a
    simp [h]
  unfold find at hfind ⊢
  rw [find?_map, hcomp, hfind]
  rfl

end Map

theorem put_of_find (h : find key (key a) l = some a) : put key a l = l := by
  induction l with
  | nil => cases h
  | cons b l ih =>
    unfold find at h
    unfold put
    by_cases hb : key b = key a
    · rw [find?_cons_of_pos (by simpa using hb)] at h
      obtain rfl := Option.some.inj h
      rw [if_pos rfl]
    · rw [find?_cons_of_neg (by simpa using hb)] at h
      rw [if_neg hb, ih h]

/-! ## Distinct keys -/

theorem find_eq_some_iff (h : (l.map key).Nodup) : find key k l = some a ↔ a ∈ l ∧ key a = k := by
  refine ⟨fun hf => ⟨mem_of_find hf, key_of_find hf⟩, fun ⟨ha, hk⟩ => ?_⟩
  cases hf : find key k l with
  | none => exact absurd hk (find_eq_none_iff.mp hf a ha)
  | some b =>
    have hb := key_of_find hf
    rw [inj_on_of_nodup_map h ha (mem_of_find hf) (hk.trans hb.symm)]

theorem mem_put_iff (h : (l.map key).Nodup) :
    x ∈ put key a l ↔ x = a ∨ (x ∈ l ∧ key x ≠ key a) := by
  constructor
  · intro hx
    by_cases hkey : key x = key a
    · exact .inl (inj_on_of_nodup_map (nodup_put h a) hx (mem_put_self a l) hkey)
    · exact (mem_of_mem_put hx).imp_right fun hx => ⟨hx, hkey⟩
  · rintro (rfl | ⟨hx, hkey⟩)
    · exact mem_put_self x l
    · exact mem_put_of_ne hx hkey

end IOIsolation.Lib.KeyedList
