import Mathlib.Algebra.Polynomial.HasseDeriv
import Mathlib.Algebra.Polynomial.Taylor
import ExactAlgebra.Polynomial.Taylor
import ExactAlgebra.Proofs.Integer.Factorial
import ExactAlgebra.Proofs.Polynomial.Division
import ExactAlgebra.Proofs.Polynomial.Evaluation

/-!
The expansion of a polynomial in powers of `x - a`.

* **Repeated division.** A division by `x - a` splits the constant term off the expansion and
  leaves the expansion of a shorter quotient. After as many divisions as there are coefficients
  nothing is left, so that the remainders are the coefficients of the polynomial shifted by `a`
  (`toPoly_taylorCoefficients`, `toPoly_rebase`).
* **Repeated differentiation.** The same coefficients are the values of the derivatives at `a`
  over factorials (`coeff_taylor_eq`).
* **Substitution.** Horner's method in `x - a` gives the values of the polynomial
  (`evalShifted_rebase`), and the coefficients are those of the polynomial composed with `x + a`
  (`shiftedPolynomial?_rebase`).

Main statement: `rebase_taylor`.
-/

open Polynomial

namespace ExactAlgebra

/-- The value at a shift is that of the polynomial in the shift. -/
lemma TaylorExpansion.evalShifted_eq (t : TaylorExpansion) (s : ℚ) :
    t.evalShifted s = (Coefficients.toPoly t.coefficients).eval s :=
  (Coefficients.eval_toPoly s _).symm

namespace Polynomial

/-! ### Repeated division -/

/-- There is one coefficient for every division. -/
lemma length_taylorCoefficients (a : ℚ) (count : ℕ) (p : Polynomial) :
    (taylorCoefficients a count p).length = count := by
  induction count generalizing p with
  | zero => rfl
  | succ count ih => rw [taylorCoefficients, List.length_cons, ih]

/-- One division splits the constant term off the shifted polynomial. -/
lemma taylor_eq_syntheticDivide (a : ℚ) (p : Polynomial) :
    taylor a p.toPoly = C (p.syntheticDivide a).remainder
      + X * taylor a (p.syntheticDivide a).quotient.toPoly := by
  have hshift : taylor a (X - C a) = X := by
    rw [map_sub, taylor_X, taylor_C, add_sub_cancel_right]
  conv_lhs => rw [toPoly_syntheticDivide p a, map_add, taylor_mul, hshift, taylor_C, add_comm]

/-- The remainders of as many divisions as a polynomial has coefficients, or more, are the
coefficients of the shifted polynomial: the quotients lose a coefficient at every step. -/
lemma toPoly_taylorCoefficients (a : ℚ) {count : ℕ} {p : Polynomial}
    (h : p.ascending.length ≤ count) :
    Coefficients.toPoly (taylorCoefficients a count p) = taylor a p.toPoly := by
  induction count generalizing p with
  | zero =>
      have hp : p.toPoly = 0 := by
        rw [toPoly, List.length_eq_zero_iff.mp (Nat.le_zero.mp h), Coefficients.toPoly_nil]
      rw [taylorCoefficients, Coefficients.toPoly_nil, hp, map_zero]
  | succ count ih =>
      have hquotient : (p.syntheticDivide a).quotient.ascending.length ≤ count := by
        have := length_quotient_le p a
        omega
      rw [taylorCoefficients, Coefficients.toPoly_cons, ih hquotient, ← taylor_eq_syntheticDivide]

lemma length_ascending_le (p : Polynomial) : p.ascending.length ≤ p.coefficients.length := by
  rw [coefficients]
  split
  · next h => simp [List.isEmpty_iff.mp h]
  · exact le_rfl

/-- The coefficients about `a` are those of `p(x + a)`. -/
lemma toPoly_rebase (p : Polynomial) (a : ℚ) :
    Coefficients.toPoly (p.rebase a).coefficients = taylor a p.toPoly :=
  toPoly_taylorCoefficients a p.length_ascending_le

/-! ### Repeated differentiation -/

/-- A coefficient of the shifted polynomial is the value of a derivative over a factorial. -/
lemma coeff_taylor_eq (p : Polynomial) (a : ℚ) (k : ℕ) :
    (taylor a p.toPoly).coeff k = (p.derivative k).eval a / (Integer.factorial k : ℚ) := by
  have hderiv : (fun f : ℚ[X] => f.derivative)^[k] p.toPoly
      = k.factorial • hasseDeriv k p.toPoly :=
    congrFun (factorial_smul_hasseDeriv (R := ℚ) k).symm p.toPoly
  rw [taylor_coeff, eval_eq, toPoly_derivative, hderiv, eval_smul, nsmul_eq_mul,
    ← Integer.factorial_eq, mul_div_cancel_left₀ _ (Integer.cast_factorial_ne_zero k)]

/-! ### Substitution -/

/-- The expansion has the values of the polynomial, counted from its center. -/
lemma evalShifted_rebase (p : Polynomial) (a s : ℚ) :
    (p.rebase a).evalShifted s = p.eval (a + s) := by
  rw [TaylorExpansion.evalShifted_eq, toPoly_rebase, taylor_eval, eval_eq, add_comm]

lemma eval_rebase (p : Polynomial) (a x : ℚ) : (p.rebase a).eval x = p.eval x := by
  change (p.rebase a).evalShifted (x - a) = p.eval x
  rw [evalShifted_rebase, add_sub_cancel]

lemma length_coefficients_rebase (p : Polynomial) (a : ℚ) :
    (p.rebase a).coefficients.length = p.coefficients.length :=
  length_taylorCoefficients a _ p

/-- An expansion of a polynomial has a coefficient, and its shifted polynomial is the composition
with `x + a`. -/
lemma shiftedPolynomial?_rebase (p : Polynomial) (a : ℚ) :
    ∃ q, (p.rebase a).shiftedPolynomial? = .ok q ∧ q.toPoly = p.toPoly.comp (X + C a) := by
  have hne : (p.rebase a).coefficients.isEmpty = false := by
    rw [← Bool.not_eq_true, List.isEmpty_iff, ← List.length_eq_zero_iff, length_coefficients_rebase,
      List.length_eq_zero_iff]
    exact p.coefficients_ne_nil
  refine ⟨ofList (p.rebase a).coefficients (p.rebase a).label, ?_, ?_⟩
  · rw [TaylorExpansion.shiftedPolynomial?, ofCoefficients?, hne]
    rfl
  · rw [toPoly_ofList, toPoly_rebase, taylor_apply]

/-- **Rebasing gives the Taylor expansion.** Expanded about `a`, a polynomial has the center `a`
and as many coefficients as it shows. The `k`-th one is the value of the `k`-th derivative at `a`
over `k!`. At `a + s`, and at `x`, the expansion has the value of the polynomial, and its
coefficients are those of the polynomial composed with `x + a`. -/
theorem rebase_taylor (p : Polynomial) (a : ℚ) :
    (p.rebase a).center = a
    ∧ (p.rebase a).coefficients.length = p.coefficients.length
    ∧ (∀ k, (p.rebase a).coefficients.getD k 0
        = (p.derivative k).eval a / (Integer.factorial k : ℚ))
    ∧ (∀ s, (p.rebase a).evalShifted s = p.eval (a + s))
    ∧ (∀ x, (p.rebase a).eval x = p.eval x)
    ∧ ∃ q, (p.rebase a).shiftedPolynomial? = .ok q
      ∧ ∀ label, q.coefficients = (p.compose (ofList [a, 1] label)).coefficients := by
  refine ⟨rfl, length_coefficients_rebase p a, fun k => ?_, evalShifted_rebase p a,
    eval_rebase p a, ?_⟩
  · rw [← Coefficients.coeff_toPoly, toPoly_rebase, coeff_taylor_eq]
  · obtain ⟨q, hq, hcomp⟩ := shiftedPolynomial?_rebase p a
    refine ⟨q, hq, fun label => ?_⟩
    have hshift : (ofList [a, 1] label).toPoly = X + C a := by
      simp [add_comm]
    rw [coefficients_eq_iff, hcomp, toPoly_compose, hshift]

/-- The polynomial `1 - 3x + 2x³` in powers of `x + 1/2`. -/
example : (ofList [1, -3, 0, 2] none).rebase (-1/2) = ⟨-1/2, [9/4, -3/2, -3, 2], none⟩ := by
  decide +kernel

end Polynomial

end ExactAlgebra
