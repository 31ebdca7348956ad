import Mathlib.Logic.Basic

/-!
# Lib.Outcome

How a call of a program with one mutex can end: it returns, it panics (a nil dereference, the
unlock of a free mutex), or it waits for ever for a mutex its own call chain holds.

A program is written once against a `LockModel`. Under `ignored` the lock calls do nothing, which
is the reading of statements that abstract from locks; under `nonReentrant` they drive a
held/free flag. `Reaches` says where a loop with early exits stops.
-/

namespace IOIsolation.Lib

inductive Outcome (α : Type) where
  | done (a : α)
  | panic
  | deadlock
  deriving DecidableEq

namespace Outcome

variable {α β : Type}

/-- Continue with the returned value; a panic or a deadlock ends the call. -/
def bind : Outcome α → (α → Outcome β) → Outcome β
  | done a, f => f a
  | panic, _ => panic
  | deadlock, _ => deadlock

instance : Monad Outcome where
  pure := done
  bind := bind

@[simp] theorem pure_eq (a : α) : (pure a : Outcome α) = done a := rfl
@[simp] theorem done_bind (a : α) (f : α → Outcome β) : (done a >>= f) = f a := rfl
@[simp] theorem panic_bind (f : α → Outcome β) : ((panic : Outcome α) >>= f) = panic := rfl
@[simp] theorem deadlock_bind (f : α → Outcome β) :
    ((deadlock : Outcome α) >>= f) = deadlock := rfl

variable {x : Outcome α} {a : α}

theorem bind_eq_done {f : α → Outcome β} {b : β} :
    (x >>= f) = done b ↔ ∃ a, x = done a ∧ f a = done b := by
  cases x with
  | done | panic | deadlock => simp

def toOption : Outcome α → Option α
  | done a => some a
  | _ => none

theorem toOption_eq_some : x.toOption = some a ↔ x = done a := by
  cases x <;> simp [toOption]

/-- A nil pointer read: the value behind it, or a panic. -/
def ofOption : Option α → Outcome α
  | some a => done a
  | none => panic

@[simp] theorem ofOption_some (a : α) : ofOption (some a) = done a := rfl
@[simp] theorem ofOption_none : ofOption (none : Option α) = panic := rfl

theorem ofOption_eq_done {o : Option α} : ofOption o = done a ↔ o = some a := by
  cases o <;> simp [ofOption]

end Outcome

variable {α : Type}

theorem except_bind_ok {ε β : Type} {x : Except ε α} {f : α → Except ε β} {b : β}
    (h : (x >>= f) = .ok b) : ∃ a, x = .ok a ∧ f a = .ok b := by
  cases x with
  | error e => cases h
  | ok a => exact ⟨a, rfl, h⟩

/-- How the lock calls of a program are read. -/
inductive LockModel where
  | ignored
  | nonReentrant
  deriving DecidableEq

namespace LockModel

def lock : LockModel → Bool → Outcome Bool
  | ignored, held => .done held
  | nonReentrant, false => .done true
  | nonReentrant, true => .deadlock

/-- Release the mutex; releasing a free one is a fatal error. -/
def unlock : LockModel → Bool → Outcome Bool
  | ignored, held => .done held
  | nonReentrant, true => .done false
  | nonReentrant, false => .panic

@[simp] theorem ignored_lock (b : Bool) : ignored.lock b = .done b := rfl
@[simp] theorem ignored_unlock (b : Bool) : ignored.unlock b = .done b := rfl
@[simp] theorem nonReentrant_lock_false : nonReentrant.lock false = .done true := rfl
@[simp] theorem nonReentrant_lock_true : nonReentrant.lock true = .deadlock := rfl
@[simp] theorem nonReentrant_unlock_true : nonReentrant.unlock true = .done false := rfl

end LockModel

/-- A loop that passes over the elements with `pass` gets to one with `stop`. -/
def Reaches {α : Type} (pass stop : α → Prop) : List α → Prop
  | [] => False
  | x :: xs => stop x ∨ pass x ∧ Reaches pass stop xs

theorem Reaches.of_mem {pass stop : α → Prop} {xs : List α} {x : α} (hpass : ∀ y ∈ xs, pass y)
    (hx : x ∈ xs) (hstop : stop x) : Reaches pass stop xs := by
  induction xs with
  | nil => cases hx
  | cons y ys ih =>
    rw [List.forall_mem_cons] at hpass
    rcases List.mem_cons.mp hx with rfl | hx
    · exact .inl hstop
    · exact .inr ⟨hpass.1, ih hpass.2 hx⟩

end IOIsolation.Lib
