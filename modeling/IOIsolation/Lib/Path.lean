import Mathlib.Data.List.Basic
import Mathlib.Data.String.Basic

/-!
# Lib.Path

Where a path leads: the directory and file names on the way, with empty parts and dots left out and
`..` going back. Links are not followed.

* `resolve_name`        — adding a proper name to a path goes one level down, to that name.
* `isName_of_mem_resolve` — every name on the way is a proper one.
-/

namespace IOIsolation.Lib.Path

open List

/-- A name that a directory can have an entry for. -/
def IsName (s : String) : Prop := s ≠ "" ∧ s ≠ "." ∧ s ≠ ".." ∧ '/' ∉ s.toList

instance (s : String) : Decidable (IsName s) := inferInstanceAs (Decidable (_ ∧ _ ∧ _ ∧ _))

def parts : List Char → List (List Char)
  | [] => [[]]
  | c :: cs =>
    if c = '/' then [] :: parts cs
    else
      match parts cs with
      | [] => [[c]]
      | p :: ps => (c :: p) :: ps

theorem parts_ne_nil (cs : List Char) : parts cs ≠ [] := by
  cases cs with
  | nil => simp [parts]
  | cons c cs =>
    unfold parts
    split_ifs
    · simp
    · split <;> simp

theorem parts_slash (a b : List Char) : parts (a ++ '/' :: b) = parts a ++ parts b := by
  induction a with
  | nil => simp [parts]
  | cons c a ih =>
    simp only [cons_append, parts, ih]
    split_ifs
    · rfl
    cases h : parts a with
    | nil => exact absurd h (parts_ne_nil a)
    | cons p ps => rfl

theorem parts_of_notMem {a : List Char} (h : '/' ∉ a) : parts a = [a] := by
  induction a with
  | nil => rfl
  | cons c a ih =>
    rw [mem_cons, not_or] at h
    rw [parts, if_neg (Ne.symm h.1), ih h.2]

theorem notMem_of_mem_parts {cs : List Char} : ∀ p ∈ parts cs, '/' ∉ p := by
  induction cs with
  | nil => simp [parts]
  | cons c cs ih =>
    intro p hp
    unfold parts at hp
    split_ifs at hp with hc
    · rcases mem_cons.mp hp with rfl | hp
      · simp
      · exact ih p hp
    cases hps : parts cs with
    | nil => exact absurd hps (parts_ne_nil cs)
    | cons q qs =>
      rw [hps] at hp ih
      rcases mem_cons.mp hp with rfl | hp
      · rw [mem_cons, not_or]
        exact ⟨Ne.symm hc, ih q mem_cons_self⟩
      · exact ih p (mem_cons_of_mem q hp)

/-- One step on the way. -/
def enter (dir : List String) (part : String) : List String :=
  if part = "" ∨ part = "." then dir
  else if part = ".." then dir.dropLast
  else dir ++ [part]

def resolve (path : String) : List String :=
  ((parts path.toList).map String.ofList).foldl enter []

theorem resolve_slash (p q : String) :
    resolve (p ++ "/" ++ q) = ((parts q.toList).map String.ofList).foldl enter (resolve p) := by
  have happ : (p ++ "/" ++ q).toList = p.toList ++ '/' :: q.toList := by simp
  rw [resolve, happ, parts_slash, map_append, foldl_append]
  rfl

theorem resolve_name {n : String} (h : IsName n) (p : String) :
    resolve (p ++ "/" ++ n) = resolve p ++ [n] := by
  obtain ⟨hempty, hdot, hdots, hslash⟩ := h
  rw [resolve_slash, parts_of_notMem hslash]
  simp [enter, hempty, hdot, hdots]

theorem isName_of_mem_resolve {path n : String} (h : n ∈ resolve path) : IsName n := by
  have hall : ∀ (l : List String) (dir : List String), (∀ x ∈ l, '/' ∉ x.toList) →
      (∀ x ∈ dir, IsName x) → ∀ x ∈ l.foldl enter dir, IsName x := by
    intro l
    induction l with
    | nil => intro dir _ hdir; exact hdir
    | cons part l ih =>
      intro dir hl hdir
      rw [forall_mem_cons] at hl
      refine ih (enter dir part) hl.2 fun x hx => ?_
      unfold enter at hx
      split_ifs at hx with hskip hback
      · exact hdir x hx
      · exact hdir x (dropLast_subset dir hx)
      rcases mem_append.mp hx with hx | hx
      · exact hdir x hx
      rw [mem_singleton] at hx
      subst hx
      rw [not_or] at hskip
      exact ⟨hskip.1, hskip.2, hback, hl.1⟩
  refine hall _ [] ?_ (by simp) n h
  intro x hx
  obtain ⟨p, hp, rfl⟩ := mem_map.mp hx
  simpa using notMem_of_mem_parts p hp

/-! ## Parts of a path -/

/-- A rooted path without its detours. -/
def clean (path : String) : String := "/" ++ "/".intercalate (resolve path)

/-- A name under a rooted path. -/
def join (path name : String) : String := clean (path ++ "/" ++ name)

/-- What comes before the last slash of a rooted path. -/
def dir (path : String) : String :=
  clean (String.ofList ((path.toList.reverse.dropWhile fun c => c ≠ '/').reverse))

/-- The last part that is not empty. -/
def base (path : String) : String :=
  match ((parts path.toList).filter fun p => p ≠ []).getLast? with
  | some p => String.ofList p
  | none => if path = "" then "." else "/"

end IOIsolation.Lib.Path
