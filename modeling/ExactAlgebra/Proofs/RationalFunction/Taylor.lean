import ExactAlgebra.Proofs.Polynomial.GreatestCommonDivisor
import ExactAlgebra.Proofs.RationalFunction.Expansion

/-!
Taylor's theorem for rational functions.

The `k`-th derivative, reduced after every step, still has a value at a point that is no pole,
and its expansion there is the `k`-th derivative of the expansion (`expansion_derivative`). Its
value over `k!` is therefore the `k`-th coefficient (`eval?_derivative_eq_ok`). The sum of the
first `m` terms with these coefficients is the truncated expansion
(`toPoly_taylorSum`), which times the denominator is the numerator up to a multiple of
`(x - a) ^ m`.

Main statement: `taylor_remainder`.
-/

open Polynomial

namespace ExactAlgebra

/-! ### Sums of powers of `x - a` -/

namespace Polynomial

/-- The sum of the terms `c k * (x - a) ^ k` for `k < m`. -/
def taylorSum (a : ℚ) (c : ℕ → ℚ) : (m : ℕ) → Polynomial
  | 0 => zero none
  | m + 1 => taylorSum a c m + (linear a none ^ m).scale (c m)

/-- With the coefficients of a power series, the sum is its truncation, in powers of `x - a`. -/
lemma toPoly_taylorSum (a : ℚ) (e : PowerSeries ℚ) (m : ℕ) :
    (taylorSum a (fun k => PowerSeries.coeff k e) m).toPoly
      = (PowerSeries.trunc m e).comp (X - C a) := by
  induction m with
  | zero => rw [PowerSeries.trunc_zero', zero_comp, taylorSum, toPoly_zero]
  | succ m ih =>
      rw [taylorSum, toPoly_add, ih, toPoly_scale, toPoly_pow, toPoly_linear,
        PowerSeries.trunc_succ, add_comp, monomial_comp]

end Polynomial

/-! ### Values of the derivatives -/

namespace RationalFunction

variable {g : RationalFunction} {a : ℚ}

/-- The expansion of the `k`-th derivative is the `k`-th derivative of the expansion. -/
lemma expansion_derivative (ha : g.denominator.toPoly.eval a ≠ 0) (k : ℕ) :
    (g.derivative k).expansion a = (PowerSeries.derivative ℚ)^[k] (g.expansion a) := by
  induction k with
  | zero => rfl
  | succ k ih =>
      rw [derivative, expansion_derivativeOnce (eval_denominator_derivative ha k), ih,
        Function.iterate_succ_apply']

/-- Every derivative has a value at a point that is no pole: `k!` times the coefficient. -/
lemma eval?_derivative_eq_ok (ha : g.denominator.toPoly.eval a ≠ 0) (k : ℕ) :
    ∃ v, (g.derivative k).eval? a = .ok v
      ∧ PowerSeries.coeff k (g.expansion a) = v / (Integer.factorial k : ℚ) := by
  refine ⟨_, eval?_eq_constantCoeff (eval_denominator_derivative ha k), ?_⟩
  rw [expansion_derivative ha, constantCoeff_div_factorial]

/-- **Taylor's theorem for rational functions.** At a point `a` that is no zero of the
denominator every derivative has a value. With these values over `k!` as the coefficients `c k`,
the numerator differs from the denominator times the sum of `c k * (x - a) ^ k` over `k < m` by
a multiple of `(x - a) ^ m`, for every `m`. -/
theorem taylor_remainder (g : RationalFunction) {a : ℚ} (ha : g.denominator.eval a ≠ 0) :
    ∃ c : ℕ → ℚ,
      (∀ k, ∃ v, (g.derivative k).eval? a = .ok v ∧ c k = v / (Integer.factorial k : ℚ))
      ∧ ∀ m, (Polynomial.linear a none ^ m).Divides
        (g.numerator - g.denominator * Polynomial.taylorSum a c m) := by
  rw [Polynomial.eval_eq] at ha
  refine ⟨fun k => PowerSeries.coeff k (g.expansion a), eval?_derivative_eq_ok ha, fun m => ?_⟩
  rw [Polynomial.divides_iff_dvd, Polynomial.toPoly_pow, Polynomial.toPoly_linear,
    Polynomial.toPoly_sub, Polynomial.toPoly_mul, Polynomial.toPoly_taylorSum]
  exact pow_dvd_sub_truncation ha m

/-- A function that is not reduced, `(x² - 1) / (2 (x - 1) (x + 3))`, at the point `-1`, where it
has a zero. The values of its derivatives are `0`, `1/4` and `-1/4`. -/
theorem taylor_remainder_unreduced :
    let g : RationalFunction := ⟨.ofList [-1, 0, 1] none,
      (Polynomial.ofRoots [1, -3] (some "t")).scale 2, by decide +kernel⟩
    g.denominator.eval (-1) ≠ 0
      ∧ g.eval? (-1) = .ok 0
      ∧ (g.derivative 1).eval? (-1) = .ok (1/4)
      ∧ (g.derivative 2).eval? (-1) = .ok (-1/4)
      ∧ ∃ c : ℕ → ℚ,
        (∀ k, ∃ v, (g.derivative k).eval? (-1) = .ok v ∧ c k = v / (Integer.factorial k : ℚ))
        ∧ ∀ m, (Polynomial.linear (-1) none ^ m).Divides
          (g.numerator - g.denominator * Polynomial.taylorSum (-1) c m) := by
  intro g
  have ha : g.denominator.eval (-1) ≠ 0 := by decide +kernel
  exact ⟨ha, by decide +kernel, by decide +kernel, by decide +kernel, taylor_remainder g ha⟩

end RationalFunction

end ExactAlgebra
