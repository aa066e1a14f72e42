import ExactAlgebra.Proofs.Integer.Factorial
import ExactAlgebra.Proofs.Polynomial.IntegralDomain

/-!
Derivatives and integrals of polynomials.

* **Repeated derivatives.** The loop computes the iterated derivative of `ℚ[X]`
  (`toPoly_derivative`), so that every coefficient moves down and is multiplied by the quotient of
  two factorials (`coefficient_derivative`). The factor is not zero: a derivative vanishes when
  its order is above the degree (`isZero_derivative_iff`). Orders add up (`derivative_derivative`).
* **Products** follow Leibniz's rule (`derivative_product`).
* **Integrals.** Multiplying by the indices undoes the division by them
  (`Coefficients.timesIndex_overIndex`), so that the derivative of an integral is the polynomial
  (`derivative_integral`). The other way round the constant is lost, and its value at zero restores
  it (`integral_derivative`), since a polynomial is determined by its derivative and one value
  (`eq_of_derivative_eq`).

Main statement: `calculus_laws`.
-/

open Polynomial

namespace ExactAlgebra

/-- Two polynomials with the same derivative and the same value at zero are equal. -/
lemma eq_of_derivative_eq {f g : ℚ[X]} (hderiv : f.derivative = g.derivative)
    (hzero : f.eval 0 = g.eval 0) : f = g := by
  have hconst : f - g = C ((f - g).coeff 0) := by
    refine eq_C_of_derivative_eq_zero ?_
    rw [derivative_sub, hderiv, sub_self]
  have hcoeff : (f - g).coeff 0 = 0 := by
    rw [coeff_zero_eq_eval_zero, eval_sub, hzero, sub_self]
  rw [hcoeff, C_0] at hconst
  exact sub_eq_zero.mp hconst

namespace Coefficients

/-- Multiplying by the indices undoes the division by them. -/
lemma timesIndex_overIndex {k : ℕ} (hk : 0 < k) (as : List ℚ) :
    timesIndex k (overIndex k as) = as := by
  induction as generalizing k with
  | nil => rfl
  | cons a as ih =>
      have hk0 : (k : ℚ) ≠ 0 := Nat.cast_ne_zero.mpr hk.ne'
      rw [overIndex, timesIndex, ih k.succ_pos, div_mul_cancel₀ _ hk0]

/-- Differentiation undoes integration, coefficient by coefficient. -/
lemma derivative_antiderivative (c : ℚ) (as : List ℚ) :
    derivative (antiderivative c as) = as :=
  timesIndex_overIndex one_pos as

end Coefficients

namespace Polynomial

variable {p : Polynomial} {n k : ℕ}

/-! ### Repeated derivatives -/

/-- A coefficient of the `n`-th derivative is the one `n` places above, times the indices that it
passed on its way down. -/
lemma coefficient_derivative (p : Polynomial) (n k : ℕ) :
    (p.derivative n).coefficient k
      = p.coefficient (k + n) * Integer.factorial (k + n) / Integer.factorial k := by
  have hcoeff : (p.derivative n).coefficient k
      = (k + n).descFactorial n • p.coefficient (k + n) := by
    rw [coefficient_eq, coefficient_eq, toPoly_derivative]
    exact coeff_iterate_derivative _ _
  rw [hcoeff, nsmul_eq_mul, eq_div_iff (Integer.cast_factorial_ne_zero k),
    Integer.cast_factorial_add]
  ring

/-- Differentiation multiplies by nonzero factors, so that it makes no new zeros. -/
lemma coefficient_derivative_eq_zero_iff :
    (p.derivative n).coefficient k = 0 ↔ p.coefficient (k + n) = 0 := by
  rw [coefficient_derivative, div_eq_zero_iff, or_iff_left (Integer.cast_factorial_ne_zero _),
    mul_eq_zero, or_iff_left (Integer.cast_factorial_ne_zero _)]

lemma isZero_iff_coefficient : p.isZero = true ↔ ∀ k, p.coefficient k = 0 := by
  simp only [← toPoly_eq_zero_iff, Polynomial.ext_iff, coefficient_eq, coeff_zero]

/-- The derivatives vanish from the first order on that is above the degree. -/
lemma isZero_derivative_iff : (p.derivative n).isZero = true ↔ p.degree < n := by
  rw [isZero_iff_coefficient, degree_lt_iff_coefficient]
  constructor
  · intro h j hj
    obtain ⟨k, rfl⟩ := Nat.exists_eq_add_of_le' hj
    exact coefficient_derivative_eq_zero_iff.mp (h k)
  · intro h k
    exact coefficient_derivative_eq_zero_iff.mpr (h (k + n) (Nat.le_add_left n k))

/-- Orders of derivatives add up. -/
lemma derivative_derivative (p : Polynomial) (m n : ℕ) :
    (p.derivative m).derivative n = p.derivative (m + n) := by
  refine ext_toPoly ?_ ?_
  · rw [toPoly_derivative, toPoly_derivative, toPoly_derivative, Nat.add_comm,
      Function.iterate_add_apply]
  · simp only [label_derivative]

/-- Leibniz's rule. -/
lemma derivative_product (p q : Polynomial) :
    (p * q).derivative 1 = p.derivative 1 * q + p * q.derivative 1 := by
  refine ext_toPoly ?_ ?_
  · simp only [toPoly_derivative_one, toPoly_mul, toPoly_add, derivative_mul]
  · have hlabel : (p.derivative 1 * q).label = (p * q.derivative 1).label := by
      simp only [label_mul, jointLabel, label_derivative]
    rw [label_derivative, label_add, jointLabel_of_label_eq hlabel]
    simp only [label_mul, jointLabel, label_derivative]

/-! ### Integrals -/

lemma toPoly_integral (p : Polynomial) (c : ℚ) :
    (p.integral c).toPoly = Coefficients.toPoly (Coefficients.antiderivative c p.ascending) := by
  rw [integral, toPoly_ofList]

/-- The derivative of an integral is the polynomial, whatever the constant is. -/
lemma derivative_integral (p : Polynomial) (c : ℚ) : (p.integral c).derivative 1 = p := by
  refine ext_toPoly ?_ ?_
  · rw [toPoly_derivative_one, toPoly_integral, ← Coefficients.toPoly_derivative,
      Coefficients.derivative_antiderivative, toPoly]
  · rw [label_derivative, label_integral]

lemma eval_zero_integral (p : Polynomial) (c : ℚ) : (p.integral c).eval 0 = c := by
  rw [eval_eq, toPoly_integral, Coefficients.antiderivative]
  simp

/-- The integral of the derivative that has the right value at zero is the polynomial. -/
lemma integral_derivative (p : Polynomial) : (p.derivative 1).integral (p.eval 0) = p := by
  refine ext_toPoly (eq_of_derivative_eq ?_ ?_) ?_
  · rw [← toPoly_derivative_one, derivative_integral, toPoly_derivative_one]
  · rw [← eval_eq, eval_zero_integral, eval_eq]
  · rw [label_integral, label_derivative]

/-- **Derivatives and integrals of polynomials.** The `k`-th coefficient of the `n`-th derivative is
the coefficient `k + n` times `(k + n)! / k!`. Hence the `n`-th derivative is zero exactly when the
degree is below `n`, and the `n`-th derivative of the `m`-th is the one of the order `m + n`.
Products follow Leibniz's rule. The integral with the constant `c` has the polynomial as its
derivative and the value `c` at zero, and the integral of the derivative with the value of the
polynomial at zero is the polynomial. All equations hold with labels. -/
theorem calculus_laws (p q : Polynomial) (c : ℚ) (m n k : ℕ) :
    (p.derivative n).coefficient k
        = p.coefficient (k + n) * Integer.factorial (k + n) / Integer.factorial k
    ∧ ((p.derivative n).isZero = true ↔ p.degree < n)
    ∧ (p.derivative m).derivative n = p.derivative (m + n)
    ∧ (p * q).derivative 1 = p.derivative 1 * q + p * q.derivative 1
    ∧ (p.integral c).derivative 1 = p
    ∧ (p.integral c).eval 0 = c
    ∧ (p.derivative 1).integral (p.eval 0) = p :=
  ⟨coefficient_derivative p n k, isZero_derivative_iff, derivative_derivative p m n,
    derivative_product p q, derivative_integral p c, eval_zero_integral p c, integral_derivative p⟩

end Polynomial

end ExactAlgebra
