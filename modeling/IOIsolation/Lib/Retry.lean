import Mathlib.Logic.Basic
import Mathlib.Tactic.SplitIfs

/-!
# Lib.Retry

Calling a function again while it fails with an error that may go away. The circumstances of a call change
from one to the next, so the function takes the number of the call.

* `onError_of_final` — a result that is not to be retried is the result of the whole.
* `onError_ok`       — a success is the success of one of the calls.
-/

namespace IOIsolation.Lib

variable {ε α : Type}

/-- The call `i` and up to `n` more; the last error is returned as it is. -/
def onError (retriable : ε → Bool) (fn : Nat → Except ε α) : Nat → Nat → Except ε α
  | 0, i => fn i
  | n + 1, i =>
    match fn i with
    | .ok a => .ok a
    | .error e => if retriable e then onError retriable fn n (i + 1) else .error e

variable {retriable : ε → Bool} {fn : Nat → Except ε α} {i : Nat}

theorem onError_of_final (h : ∀ e, fn i = .error e → retriable e = false) (n : Nat) :
    onError retriable fn n i = fn i := by
  cases n with
  | zero => rfl
  | succ n =>
    rw [onError]
    cases hf : fn i with
    | ok a => rfl
    | error e => simp [h e hf]

theorem onError_ok {n : Nat} {a : α} (h : onError retriable fn n i = .ok a) :
    ∃ j ≤ i + n, fn j = .ok a := by
  induction n generalizing i with
  | zero => exact ⟨i, Nat.le_refl i, h⟩
  | succ n ih =>
    rw [onError] at h
    cases hf : fn i with
    | ok b =>
      rw [hf] at h
      exact ⟨i, Nat.le_add_right i _, hf.trans h⟩
    | error e =>
      simp only [hf] at h
      split_ifs at h
      obtain ⟨j, hj, hok⟩ := ih h
      exact ⟨j, by omega, hok⟩

end IOIsolation.Lib
