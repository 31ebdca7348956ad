import Mathlib.Data.Rat.Defs

/-!
# Lib.Rounding

Floating-point arithmetic. A finite float is a rational, and an operation on floats is the operation
on rationals with `fl` applied to its result. A program is written once against a `Rounding`; where
none is given its arithmetic is exact.
-/

namespace IOIsolation.Lib

/-- The float an operation returns for its exact result. -/
class Rounding where
  fl : ℚ → ℚ
  fl_zero : fl 0 = 0

export Rounding (fl)

instance Rounding.exact : Rounding := ⟨fun x => x, rfl⟩

@[simp] theorem fl_exact (x : ℚ) : @fl Rounding.exact x = x := rfl

/-- No operation of the computation rounds, so far as its result tells. -/
def Unrounded {α : Type} [r : Rounding] (f : Rounding → α) : Prop := f r = f Rounding.exact

end IOIsolation.Lib
