import Mathlib.Algebra.Polynomial.Taylor
import Mathlib.RingTheory.PowerSeries.Derivative
import Mathlib.RingTheory.PowerSeries.Inverse
import Mathlib.RingTheory.PowerSeries.Trunc
import ExactAlgebra.PartialFractions.Decompose
import ExactAlgebra.Proofs.Integer.Factorial
import ExactAlgebra.Proofs.Outcome
import ExactAlgebra.Proofs.RationalFunction.Reduced

/-!
The Taylor expansion of a rational function at a point that is no pole.

* **The expansion.** `expansion` is the quotient of the shifted numerator by the shifted
  denominator in `ℚ⟦X⟧`. It depends on the function only (`expansion_congr`), its constant
  term is the value (`eval?_eq_constantCoeff`), and the quotient rule is its derivative
  (`expansion_derivativeOnce`), canonical form after every step included.
* **The coefficients.** `taylorCoefficients?` divides the values of the repeated derivatives
  by factorials: these are the coefficients of the expansion
  (`taylorCoefficients?_eq_ok`).
* **Truncation.** The first `m` coefficients determine the numerator modulo `(x - a) ^ m`
  (`pow_dvd_sub_truncation`).
-/

open Polynomial

namespace ExactAlgebra

namespace RationalFunction

variable {r s : RationalFunction} {a : ℚ}

/-! ### The expansion -/

/-- The power series in `x - a` of a rational function. -/
noncomputable def expansion (r : RationalFunction) (a : ℚ) : PowerSeries ℚ :=
  (taylor a r.numerator.toPoly : PowerSeries ℚ) * (taylor a r.denominator.toPoly : PowerSeries ℚ)⁻¹

lemma constantCoeff_taylor (a : ℚ) (p : ℚ[X]) :
    PowerSeries.constantCoeff (taylor a p : PowerSeries ℚ) = p.eval a := by
  rw [Polynomial.constantCoeff_coe, taylor_coeff_zero]

/-- Times the denominator, the expansion is the numerator, and this determines it. -/
lemma eq_expansion_iff (ha : r.denominator.toPoly.eval a ≠ 0) {e : PowerSeries ℚ} :
    e = r.expansion a ↔ e * taylor a r.denominator.toPoly = taylor a r.numerator.toPoly := by
  rw [expansion, PowerSeries.eq_mul_inv_iff_mul_eq (by rwa [constantCoeff_taylor])]

lemma expansion_mul (ha : r.denominator.toPoly.eval a ≠ 0) :
    r.expansion a * taylor a r.denominator.toPoly = taylor a r.numerator.toPoly :=
  (eq_expansion_iff ha).mp rfl

/-- Two quotients of one function have the same expansion. -/
lemma expansion_congr (hr : r.denominator.toPoly.eval a ≠ 0)
    (hs : s.denominator.toPoly.eval a ≠ 0) (h : r.toRatFunc = s.toRatFunc) :
    r.expansion a = s.expansion a := by
  have hr0 : (taylor a r.denominator.toPoly : PowerSeries ℚ) ≠ 0 := fun h0 =>
    hr (by rw [← constantCoeff_taylor, h0, map_zero])
  have hcross := congrArg (fun p => (taylor a p : PowerSeries ℚ)) (toRatFunc_eq_iff.mp h)
  simp only [taylor_mul, Polynomial.coe_mul] at hcross
  rw [eq_expansion_iff hs]
  refine mul_right_cancel₀ hr0 ?_
  calc r.expansion a * taylor a s.denominator.toPoly * taylor a r.denominator.toPoly
      = r.expansion a * taylor a r.denominator.toPoly * taylor a s.denominator.toPoly := by ring
    _ = taylor a r.numerator.toPoly * taylor a s.denominator.toPoly := by rw [expansion_mul hr]
    _ = taylor a s.numerator.toPoly * taylor a r.denominator.toPoly := hcross

/-- The constant term of the expansion is the value. -/
lemma eval?_eq_constantCoeff (ha : r.denominator.toPoly.eval a ≠ 0) :
    r.eval? a = .ok (PowerSeries.constantCoeff (r.expansion a)) := by
  rw [eval?_eq_ok_iff]
  refine ⟨ha, ?_⟩
  rw [← constantCoeff_taylor, ← constantCoeff_taylor, ← expansion_mul ha, map_mul]

/-! ### Derivatives -/

lemma derivative_taylor (a : ℚ) (p : ℚ[X]) : (taylor a p).derivative = taylor a p.derivative := by
  rw [taylor_apply, taylor_apply, derivative_comp]
  simp

lemma isZero_denominator_sq (r : RationalFunction) :
    (r.denominator * r.denominator).isZero = false :=
  Polynomial.isZero_mul r.denominator_ne_zero r.denominator_ne_zero

/-- The derivative by the quotient rule, before it is reduced. -/
def quotientRule (r : RationalFunction) : RationalFunction :=
  ⟨r.numerator.derivative 1 * r.denominator - r.numerator * r.denominator.derivative 1,
    r.denominator * r.denominator, r.isZero_denominator_sq⟩

lemma derivativeOnce_eq (r : RationalFunction) : r.derivativeOnce = r.quotientRule.simplify := rfl

lemma toPoly_quotientRule (r : RationalFunction) :
    r.quotientRule.numerator.toPoly
        = r.numerator.toPoly.derivative * r.denominator.toPoly
          - r.numerator.toPoly * r.denominator.toPoly.derivative
      ∧ r.quotientRule.denominator.toPoly = r.denominator.toPoly * r.denominator.toPoly := by
  simp [quotientRule]

lemma eval_denominator_quotientRule (ha : r.denominator.toPoly.eval a ≠ 0) :
    r.quotientRule.denominator.toPoly.eval a ≠ 0 := by
  rw [r.toPoly_quotientRule.2, eval_mul]
  exact mul_ne_zero ha ha

/-- The derivative has no new pole. -/
lemma eval_denominator_derivativeOnce (ha : r.denominator.toPoly.eval a ≠ 0) :
    r.derivativeOnce.denominator.toPoly.eval a ≠ 0 := by
  rw [derivativeOnce_eq]
  intro h0
  exact eval_denominator_quotientRule ha
    (eval_eq_zero_of_dvd_of_eval_eq_zero r.quotientRule.simplify_denominator_dvd h0)

/-- No derivative has a new pole. -/
lemma eval_denominator_derivative (ha : r.denominator.toPoly.eval a ≠ 0) (k : ℕ) :
    (r.derivative k).denominator.toPoly.eval a ≠ 0 := by
  induction k with
  | zero => exact ha
  | succ k ih => exact eval_denominator_derivativeOnce ih

/-- The quotient rule is the product rule for `e d = n`, multiplied by `d`. -/
lemma expansion_quotientRule (ha : r.denominator.toPoly.eval a ≠ 0) :
    r.quotientRule.expansion a = PowerSeries.derivative ℚ (r.expansion a) := by
  rw [eq_comm, eq_expansion_iff (eval_denominator_quotientRule ha), r.toPoly_quotientRule.1,
    r.toPoly_quotientRule.2]
  have hrule := congrArg (PowerSeries.derivative ℚ) (expansion_mul ha)
  rw [Derivation.leibniz, PowerSeries.derivative_coe, PowerSeries.derivative_coe,
    derivative_taylor, derivative_taylor, smul_eq_mul, smul_eq_mul] at hrule
  simp only [map_sub, taylor_mul, Polynomial.coe_sub, Polynomial.coe_mul]
  linear_combination (taylor a r.denominator.toPoly : PowerSeries ℚ) * hrule
    - (taylor a r.denominator.toPoly.derivative : PowerSeries ℚ) * expansion_mul ha

/-- The expansion of the derivative is the derivative of the expansion. -/
lemma expansion_derivativeOnce (ha : r.denominator.toPoly.eval a ≠ 0) :
    r.derivativeOnce.expansion a = PowerSeries.derivative ℚ (r.expansion a) := by
  rw [← expansion_quotientRule ha]
  exact expansion_congr (eval_denominator_derivativeOnce ha) (eval_denominator_quotientRule ha)
    (toRatFunc_simplify r.quotientRule)

/-! ### Taylor coefficients -/

/-- The value of the `k`-th derivative over `k!` is the `k`-th coefficient. -/
lemma constantCoeff_div_factorial (k : ℕ) (e : PowerSeries ℚ) :
    PowerSeries.constantCoeff ((PowerSeries.derivative ℚ)^[k] e) / (Integer.factorial k : ℚ)
      = PowerSeries.coeff k e := by
  rw [PowerSeries.constantCoeff_iterate_derivative, ← Integer.factorial_eq,
    mul_div_cancel_left₀ _ (Integer.cast_factorial_ne_zero k)]

/-- The Taylor coefficients of a function `e` from the order `k` on, the highest order first.
The recursion is handed the `k`-th derivative of `e`. -/
lemma taylorCoefficients?_eq_ok {e : PowerSeries ℚ} (count k : ℕ)
    (ha : r.denominator.toPoly.eval a ≠ 0)
    (he : r.expansion a = (PowerSeries.derivative ℚ)^[k] e) :
    taylorCoefficients? a count k r
      = .ok ((List.range' k count).map fun i => PowerSeries.coeff i e).reverse := by
  induction count generalizing r k with
  | zero => rfl
  | succ count ih =>
      have hvalue := constantCoeff_div_factorial k e
      cases count with
      | zero =>
          rw [taylorCoefficients?, eval?_eq_constantCoeff ha, he]
          simp [bind, Except.bind, hvalue]
      | succ count =>
          have hnext : r.derivativeOnce.expansion a = (PowerSeries.derivative ℚ)^[k + 1] e := by
            rw [expansion_derivativeOnce ha, he, Function.iterate_succ_apply']
          have htail := ih (k + 1) (eval_denominator_derivativeOnce ha) hnext
          rw [taylorCoefficients?, eval?_eq_constantCoeff ha, he,
            show r.derivative 1 = r.derivativeOnce from rfl, htail]
          simp [bind, Except.bind, hvalue, List.range'_succ]

/-! ### Truncation -/

/-- The numerator agrees modulo `(x - a) ^ m` with the denominator times the first `m` terms
of the expansion. -/
lemma pow_dvd_sub_truncation (ha : r.denominator.toPoly.eval a ≠ 0) (m : ℕ) :
    (X - C a) ^ m ∣ r.numerator.toPoly
      - r.denominator.toPoly * (PowerSeries.trunc m (r.expansion a)).comp (X - C a) := by
  rw [X_sub_C_pow_dvd_iff, sub_comp, mul_comp, comp_assoc, ← taylor_apply, ← taylor_apply,
    show (X - C a : ℚ[X]).comp (X + C a) = X by simp, comp_X, X_pow_dvd_iff]
  intro d hd
  have htail : PowerSeries.X ^ m ∣ r.expansion a
      - (PowerSeries.trunc m (r.expansion a) : PowerSeries ℚ) := by
    rw [PowerSeries.X_pow_dvd_iff]
    intro i hi
    rw [map_sub, Polynomial.coeff_coe, PowerSeries.coeff_trunc, if_pos hi, sub_self]
  have hdvd := htail.mul_right (taylor a r.denominator.toPoly : PowerSeries ℚ)
  rw [sub_mul, expansion_mul ha, ← Polynomial.coe_mul, ← Polynomial.coe_sub,
    PowerSeries.X_pow_dvd_iff] at hdvd
  rw [mul_comm, ← Polynomial.coeff_coe]
  exact hdvd d hd

end RationalFunction

end ExactAlgebra
