import ExactAlgebra.Polynomial.Arithmetic

/-!
Synthetic division: the quotient of a polynomial by `x - c` and the remainder, which is
the value at `c`. Both come from the running values of Horner's method.
-/

namespace ExactAlgebra

/-- The outcome of a division by `x - c`. -/
structure SyntheticDivision where
  quotient : Polynomial
  remainder : Rat
  deriving DecidableEq

namespace Polynomial

open Coefficients

/-- The division of a polynomial by `x - c`. -/
def syntheticDivide (p : Polynomial) (c : Rat) : SyntheticDivision :=
  let values := runningValues c p.ascending
  ⟨ofList values.tail p.label, values.headD 0⟩

theorem length_runningValues (c : Rat) (as : List Rat) :
    (runningValues c as).length = as.length := by
  induction as with
  | nil => rfl
  | cons a as ih =>
    rw [runningValues]
    split <;> simp_all

/-- The quotient has no more coefficients than stand above the constant one. -/
theorem length_quotient_le (p : Polynomial) (c : Rat) :
    (p.syntheticDivide c).quotient.ascending.length ≤ p.ascending.length - 1 := by
  refine Nat.le_trans (length_trim_le _) ?_
  simp [length_runningValues]

/-- Every division shortens a nonzero polynomial. -/
theorem length_quotient_lt {p : Polynomial} (hp : p.isZero = false) (c : Rat) :
    (p.syntheticDivide c).quotient.ascending.length < p.ascending.length := by
  have h := length_quotient_le p c
  have := List.length_pos_iff.2 (isZero_eq_false_iff.1 hp)
  omega

/-- The remainder is the value at the point. -/
theorem remainder_syntheticDivide (p : Polynomial) (c : Rat) :
    (p.syntheticDivide c).remainder = p.eval c := by
  change (runningValues c p.ascending).headD 0 = Coefficients.eval c p.ascending
  induction p.ascending with
  | nil => rfl
  | cons a as ih =>
    rw [runningValues]
    cases h : runningValues c as with
    | nil =>
      obtain rfl : as = [] := by
        rw [← List.length_eq_zero_iff, ← length_runningValues c as, h, List.length_nil]
      change a = 0 * c + a
      rw [Rat.zero_mul, Rat.zero_add]
    | cons v vs =>
      rw [h] at ih
      simp only [List.headD_cons] at ih ⊢
      rw [ih]
      rfl

end Polynomial

end ExactAlgebra
