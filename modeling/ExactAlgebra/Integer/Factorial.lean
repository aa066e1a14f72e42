import ExactAlgebra.Error

/-!
Factorials of natural numbers.
-/

namespace ExactAlgebra.Integer

/-- The product of the numbers `1, …, n`. -/
def factorial : Nat → Nat
  | 0 => 1
  | n + 1 => (n + 1) * factorial n

/-- The factorial of an integer, which must not be negative. -/
def factorialOf (n : Int) : Except Error Nat :=
  if 0 ≤ n then .ok (factorial n.toNat) else .error (.factorialArgument (toString n))

theorem factorial_pos (n : Nat) : 0 < factorial n := by
  induction n with
  | zero => decide
  | succ n ih => exact Nat.mul_pos (Nat.succ_pos n) ih

end ExactAlgebra.Integer
