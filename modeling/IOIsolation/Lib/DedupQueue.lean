import Mathlib.Data.List.Basic

/-!
# Lib.DedupQueue

A work queue of values with one worker, which merges equal items: an item that waits already is not
added again, and an item that is added while the worker holds it waits until the worker is done
with it. `waiting` lists the items the worker will still be given.

* `mem_waiting_add`  — an added item waits, and no other item is lost.
* `mem_waiting_get`  — the worker is given a waiting item, and no other item is lost.
* `mem_waiting_done` — the worker gives back what was added again meanwhile.
-/

namespace IOIsolation.Lib

structure DedupQueue (α : Type) where
  pending : List α
  /-- The item of the worker, and whether it was added again since the worker took it. -/
  processing : Option (α × Bool)
  deriving DecidableEq

namespace DedupQueue

variable {α : Type}

def empty : DedupQueue α := ⟨[], none⟩

def add [DecidableEq α] (x : α) (q : DedupQueue α) : DedupQueue α :=
  if x ∈ q.pending then q
  else
    match q.processing with
    | some (y, again) =>
      if y = x then ⟨q.pending, some (y, true)⟩ else ⟨q.pending ++ [x], some (y, again)⟩
    | none => ⟨q.pending ++ [x], none⟩

/-- The worker takes the first pending item; it holds at most one item at a time. -/
def get (q : DedupQueue α) : Option (α × DedupQueue α) :=
  match q.pending, q.processing with
  | x :: rest, none => some (x, ⟨rest, some (x, false)⟩)
  | _, _ => none

def done (q : DedupQueue α) : DedupQueue α :=
  match q.processing with
  | some (x, true) => ⟨q.pending ++ [x], none⟩
  | _ => ⟨q.pending, none⟩

def waiting (q : DedupQueue α) : List α :=
  match q.processing with
  | some (x, true) => q.pending ++ [x]
  | _ => q.pending

def Idle (q : DedupQueue α) : Prop := q.pending = [] ∧ q.processing = none

instance (q : DedupQueue α) : Decidable q.Idle := inferInstanceAs (Decidable (_ ∧ _))

variable {q q' : DedupQueue α} {x y : α}

theorem mem_waiting : y ∈ q.waiting ↔ y ∈ q.pending ∨ q.processing = some (y, true) := by
  unfold waiting
  split
  · rename_i z hz
    simp [hz, eq_comm]
  rename_i hz
  have hne : q.processing ≠ some (y, true) := hz y
  simp [hne]

theorem waiting_eq_nil_of_idle (h : q.Idle) : q.waiting = [] := by
  simp [waiting, h.1, h.2]

theorem mem_waiting_add [DecidableEq α] : y ∈ (q.add x).waiting ↔ y = x ∨ y ∈ q.waiting := by
  unfold add
  split
  · rename_i hx
    -- an item that waits already
    have hwaits : x ∈ q.waiting := mem_waiting.mpr (.inl hx)
    constructor
    · exact .inr
    · rintro (rfl | hy)
      · exact hwaits
      · exact hy
  · cases hp : q.processing with
    | none =>
      simp [mem_waiting, hp, or_comm]
    | some held =>
      obtain ⟨z, again⟩ := held
      by_cases hz : z = x
      · -- the item of the worker waits until the worker is done with it
        simp only [if_pos hz, mem_waiting, hp, Option.some.injEq, Prod.mk.injEq, and_true]
        grind
      · simp only [if_neg hz, mem_waiting, hp, List.mem_append, List.mem_singleton]
        tauto

theorem processing_add_eq_none [DecidableEq α] :
    (q.add x).processing = none ↔ q.processing = none := by
  unfold add
  split
  · exact Iff.rfl
  cases hp : q.processing with
  | none => exact Iff.rfl
  | some held =>
    obtain ⟨y, again⟩ := held
    by_cases hy : y = x <;> simp [hy]

theorem get_cases (h : q.get = some (x, q')) :
    q.processing = none ∧ q.pending = x :: q'.pending ∧ q'.processing = some (x, false) := by
  unfold get at h
  split at h
  · rename_i rest hp hq
    obtain ⟨rfl, rfl⟩ := h
    exact ⟨hq, hp, rfl⟩
  · cases h

theorem mem_waiting_get (h : q.get = some (x, q')) :
    y ∈ q.waiting ↔ y = x ∨ y ∈ q'.waiting := by
  obtain ⟨hp, hpend, hp'⟩ := get_cases h
  simp [mem_waiting, hp, hpend, hp']

theorem mem_waiting_done : y ∈ q.done.waiting ↔ y ∈ q.waiting := by
  unfold done
  split
  · rename_i z hz
    simp [mem_waiting, hz, eq_comm]
  rename_i hz
  have hne : q.processing ≠ some (y, true) := hz y
  simp [mem_waiting, hne]

end DedupQueue

end IOIsolation.Lib
