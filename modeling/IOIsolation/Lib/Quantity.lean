import Mathlib.Data.Rat.Defs

/-!
# Lib.Quantity

Resource quantities as Kubernetes writes them: a decimal number with a decimal suffix (`4k`), a binary
suffix (`1Gi`) or an exponent (`1e3`). Besides the exact value an amount says what reading it as an
integer gives: nothing where the parser keeps it as a decimal. The parser itself is a parameter.
-/

namespace IOIsolation.Lib

structure Amount where
  value : ℚ
  asInt64 : Option Int
  deriving DecidableEq

/-- `ParseQuantity`, with what is assumed of it: an amount that is read as an integer is that
integer. -/
class QuantityParser where
  parseQuantity : String → Option Amount
  value_of_asInt64 : ∀ {s a} {k : Int},
    parseQuantity s = some a → a.asInt64 = some k → a.value = k

export QuantityParser (parseQuantity)

/-- The texts of the runs on fixed inputs, with what the parser gives for them. -/
def sampleTexts : List (String × Amount) :=
  [("4k", ⟨4000, some 4000⟩), ("10Mi", ⟨10485760, some 10485760⟩),
    ("1.5Mi", ⟨1572864, none⟩)]

theorem sampleTexts_integers :
    ∀ p ∈ sampleTexts, ∀ k ∈ p.2.asInt64, p.2.value = k := by
  decide +kernel

theorem sampleTexts_value {s : String} {a : Amount} {k : Int} (h : sampleTexts.lookup s = some a)
    (hk : a.asInt64 = some k) : a.value = k := by
  obtain ⟨before, after, htexts, -⟩ := List.lookup_eq_some_iff.mp h
  exact sampleTexts_integers (s, a) (by simp [htexts]) k hk

@[reducible] def sampleParser : QuantityParser where
  parseQuantity s := sampleTexts.lookup s
  value_of_asInt64 := sampleTexts_value

end IOIsolation.Lib
