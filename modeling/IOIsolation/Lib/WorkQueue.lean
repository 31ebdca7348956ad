import Mathlib.Data.List.Perm.Basic

/-!
# Lib.WorkQueue

A rate-limited work queue with one worker. `add` puts an item at the end of the pending list,
`get` hands the first pending item to the worker, `done` takes it back from the worker,
`addRateLimited` parks it until its back-off is over, and `expire` puts a parked item back at
the end of the pending list. Items are pointers to fresh records, so no two of them are equal
and the queue never merges items.
-/

namespace IOIsolation.Lib

structure WorkQueue (α : Type) where
  pending : List α
  delayed : List α
  processing : Option α
  deriving DecidableEq

namespace WorkQueue

variable {α : Type}

def empty : WorkQueue α := ⟨[], [], none⟩

def add (x : α) (q : WorkQueue α) : WorkQueue α := { q with pending := q.pending ++ [x] }

/-- The worker takes the first pending item; it holds at most one item at a time. -/
def get (q : WorkQueue α) : Option (α × WorkQueue α) :=
  match q.pending, q.processing with
  | x :: rest, none => some (x, { q with pending := rest, processing := some x })
  | _, _ => none

def done (q : WorkQueue α) : WorkQueue α := { q with processing := none }

def addRateLimited (x : α) (q : WorkQueue α) : WorkQueue α :=
  { q with delayed := q.delayed ++ [x] }

/-- The back-off of the `i`-th parked item is over. -/
def expire (i : Nat) (q : WorkQueue α) : Option (WorkQueue α) :=
  match q.delayed[i]? with
  | some x => some { q with pending := q.pending ++ [x], delayed := q.delayed.eraseIdx i }
  | none => none

def items (q : WorkQueue α) : List α := q.processing.toList ++ q.pending ++ q.delayed

/-- No item is pending, parked or being processed. -/
def Idle (q : WorkQueue α) : Prop := q.items = []

instance (q : WorkQueue α) : Decidable q.Idle :=
  decidable_of_iff (q.items.isEmpty = true) List.isEmpty_iff

variable {q q' : WorkQueue α} {x y : α}

theorem mem_items : y ∈ q.items ↔ q.processing = some y ∨ y ∈ q.pending ∨ y ∈ q.delayed := by
  cases h : q.processing <;> simp [items, h, eq_comm]

theorem not_mem_items_of_idle (h : q.Idle) : y ∉ q.items := by
  unfold Idle at h
  simp [h]

theorem mem_items_add : y ∈ (q.add x).items ↔ y = x ∨ y ∈ q.items := by
  simp only [mem_items, add, List.mem_append, List.mem_singleton]
  tauto

theorem get_cases (h : q.get = some (x, q')) :
    q.processing = none ∧ q.pending = x :: q'.pending ∧ q'.delayed = q.delayed ∧
      q'.processing = some x := by
  unfold get at h
  split at h
  · rename_i rest hp hq
    obtain ⟨rfl, rfl⟩ := h
    exact ⟨hq, hp, rfl, rfl⟩
  · cases h

/-- Taking an item moves it from the pending list to the worker and loses nothing. -/
theorem mem_items_get (h : q.get = some (x, q')) : y ∈ q'.items ↔ y ∈ q.items := by
  obtain ⟨hq, hp, hd, hx⟩ := get_cases h
  simp only [mem_items, hq, hp, hd, hx, List.mem_cons, Option.some.injEq]
  constructor
  · rintro (rfl | h | h)
    · exact .inr (.inl (.inl rfl))
    · exact .inr (.inl (.inr h))
    · exact .inr (.inr h)
  · rintro (h | (rfl | h) | h)
    · cases h
    · exact .inl rfl
    · exact .inr (.inl h)
    · exact .inr (.inr h)

theorem mem_items_of_done (h : y ∈ q.done.items) : y ∈ q.items := by
  simp only [mem_items, done] at h ⊢
  rcases h with h | h
  · cases h
  · exact .inr h

theorem mem_items_done_of_ne (hx : q.processing = some x) (h : y ∈ q.items) (hne : y ≠ x) :
    y ∈ q.done.items := by
  simp only [mem_items, done] at h ⊢
  rcases h with h | h
  · rw [hx, Option.some.injEq] at h; exact absurd h.symm hne
  · exact .inr h

theorem mem_items_addRateLimited : y ∈ (q.addRateLimited x).items ↔ y = x ∨ y ∈ q.items := by
  simp only [mem_items, addRateLimited, List.mem_append, List.mem_singleton]
  tauto

theorem mem_items_retry (hx : q.processing = some x) :
    y ∈ (q.done.addRateLimited x).items ↔ y ∈ q.items := by
  rw [mem_items_addRateLimited]
  constructor
  · rintro (rfl | h)
    · exact mem_items.mpr (.inl hx)
    · exact mem_items_of_done h
  · intro h
    by_cases hy : y = x
    · exact .inl hy
    · exact .inr (mem_items_done_of_ne hx h hy)

variable {i : Nat}

theorem expire_processing (h : q.expire i = some q') : q'.processing = q.processing := by
  unfold expire at h
  split at h
  · simp only [Option.some.injEq] at h; subst h; rfl
  · cases h

theorem mem_expire (h : q.expire i = some q') :
    y ∈ q'.pending ∨ y ∈ q'.delayed ↔ y ∈ q.pending ∨ y ∈ q.delayed := by
  unfold expire at h
  split at h
  · rename_i x hx
    simp only [Option.some.injEq] at h
    subst h
    have hd : y ∈ q.delayed ↔ y = x ∨ y ∈ q.delayed.eraseIdx i := by
      obtain ⟨hi, rfl⟩ := List.getElem?_eq_some_iff.mp hx
      rw [← List.mem_cons]
      exact (List.getElem_cons_eraseIdx_perm hi).mem_iff.symm
    simp only [List.mem_append, List.mem_singleton, hd]
    tauto
  · cases h

theorem mem_items_expire (h : q.expire i = some q') : y ∈ q'.items ↔ y ∈ q.items := by
  rw [mem_items, mem_items, expire_processing h, mem_expire h]

end WorkQueue
end IOIsolation.Lib
