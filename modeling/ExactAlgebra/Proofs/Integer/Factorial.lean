import Mathlib.Algebra.Order.Field.Rat
import Mathlib.Data.Nat.Factorial.Basic
import ExactAlgebra.Integer.Factorial

/-!
Factorials as divisors of rational numbers.
-/

namespace ExactAlgebra.Integer

/-- The loop computes the factorial of the library. -/
lemma factorial_eq (n : ℕ) : factorial n = n.factorial := by
  induction n with
  | zero => rfl
  | succ n ih => rw [factorial, ih, Nat.factorial_succ]

lemma cast_factorial_ne_zero (n : ℕ) : (factorial n : ℚ) ≠ 0 :=
  Nat.cast_ne_zero.mpr (factorial_pos n).ne'

/-- The factorial of a sum is the smaller factorial times the factors that are left. -/
lemma cast_factorial_add (k n : ℕ) :
    (factorial (k + n) : ℚ) = factorial k * ((k + n).descFactorial n : ℚ) := by
  have h : k.factorial * (k + n).descFactorial n = (k + n).factorial := by
    have hprod := Nat.factorial_mul_descFactorial (Nat.le_add_left n k)
    rwa [Nat.add_sub_cancel] at hprod
  rw [factorial_eq, factorial_eq, ← h, Nat.cast_mul]

end ExactAlgebra.Integer
