import ExactAlgebra.Proofs.RationalFunction.Canonical
import ExactAlgebra.Proofs.RationalFunction.Expansion
import ExactAlgebra.Proofs.RationalFunction.Field

/-!
Differentiation of rational functions is a derivation of `ℚ(X)`.

* **Independence.** The quotient rule takes two quotients of one function to one function
  (`toRatFunc_quotientRule_congr`). So does differentiation of any order
  (`toRatFunc_derivative_congr`), and from the first order on the results are reduced
  (`isReduced_derivative`), so that they have the same coefficients
  (`toPoly_derivative_congr`).
* **Rules.** The derivative of a sum and of a product come from an identity of polynomials
  (`toRatFunc_derivativeOnce_add`, `toRatFunc_derivativeOnce_mul`), that of a quotient from the
  product `q * s = r` (`toRatFunc_derivativeOnce_of_mul`).
* **Polynomials.** A polynomial has the same derivatives as a rational function
  (`toRatFunc_derivative_ofPolynomial`).

Main statement: `derivative_derivation`.
-/

open Polynomial

namespace ExactAlgebra.RationalFunction

variable {r s : RationalFunction}

/-! ### Independence of the quotient -/

@[simp] lemma toRatFunc_derivativeOnce (r : RationalFunction) :
    r.derivativeOnce.toRatFunc = r.quotientRule.toRatFunc := by
  rw [derivativeOnce_eq, toRatFunc_simplify]

/-- The quotient rule does not depend on the quotient that is written: the equation of the cross
products is differentiated. -/
lemma toRatFunc_quotientRule_congr (h : r.toRatFunc = s.toRatFunc) :
    r.quotientRule.toRatFunc = s.quotientRule.toRatFunc := by
  have hcross := toRatFunc_eq_iff.mp h
  have hderiv := congrArg (fun f : ℚ[X] => f.derivative) hcross
  simp only [derivative_mul] at hderiv
  rw [toRatFunc_eq_iff, r.toPoly_quotientRule.1, r.toPoly_quotientRule.2, s.toPoly_quotientRule.1,
    s.toPoly_quotientRule.2]
  linear_combination r.denominator.toPoly * s.denominator.toPoly * hderiv
    - (r.denominator.toPoly.derivative * s.denominator.toPoly
      + r.denominator.toPoly * s.denominator.toPoly.derivative) * hcross

/-- Equal functions have equal derivatives. -/
lemma toRatFunc_derivative_congr (h : r.toRatFunc = s.toRatFunc) (n : ℕ) :
    (r.derivative n).toRatFunc = (s.derivative n).toRatFunc := by
  induction n with
  | zero => exact h
  | succ n ih =>
      rw [derivative, derivative, toRatFunc_derivativeOnce, toRatFunc_derivativeOnce,
        toRatFunc_quotientRule_congr ih]

/-- A derivative is reduced after every step. -/
lemma isReduced_derivative (r : RationalFunction) {n : ℕ} (hn : 1 ≤ n) :
    (r.derivative n).IsReduced := by
  obtain ⟨n, rfl⟩ := Nat.exists_eq_add_of_le' hn
  exact isReduced_simplify _

/-- Equal functions have derivatives with the same numerators and the same denominators. -/
lemma toPoly_derivative_congr (h : r.toRatFunc = s.toRatFunc) {n : ℕ} (hn : 1 ≤ n) :
    (r.derivative n).numerator.toPoly = (s.derivative n).numerator.toPoly
      ∧ (r.derivative n).denominator.toPoly = (s.derivative n).denominator.toPoly :=
  (r.isReduced_derivative hn).ext (s.isReduced_derivative hn) (toRatFunc_derivative_congr h n)

/-! ### Rules -/

lemma toRatFunc_derivativeOnce_add (r s : RationalFunction) :
    (r + s).derivativeOnce.toRatFunc
      = r.derivativeOnce.toRatFunc + s.derivativeOnce.toRatFunc := by
  simp only [toRatFunc_derivativeOnce]
  rw [← toRatFunc_add, toRatFunc_eq_iff]
  simp only [toPoly_quotientRule, toPoly_add, map_add, derivative_mul]
  ring

lemma toRatFunc_derivativeOnce_mul (r s : RationalFunction) :
    (r * s).derivativeOnce.toRatFunc
      = r.derivativeOnce.toRatFunc * s.toRatFunc + r.toRatFunc * s.derivativeOnce.toRatFunc := by
  simp only [toRatFunc_derivativeOnce]
  rw [← toRatFunc_mul, ← toRatFunc_mul, ← toRatFunc_add, toRatFunc_eq_iff]
  simp only [toPoly_quotientRule, toPoly_add, toPoly_mul, derivative_mul]
  ring

/-- The quotient rule from the product rule for `q * s = r`. -/
lemma toRatFunc_derivativeOnce_of_mul {q : RationalFunction}
    (h : q.toRatFunc * s.toRatFunc = r.toRatFunc) :
    q.derivativeOnce.toRatFunc * (s.toRatFunc * s.toRatFunc)
      = r.derivativeOnce.toRatFunc * s.toRatFunc - r.toRatFunc * s.derivativeOnce.toRatFunc := by
  have hrule : r.derivativeOnce.toRatFunc
      = q.derivativeOnce.toRatFunc * s.toRatFunc + q.toRatFunc * s.derivativeOnce.toRatFunc := by
    rw [← toRatFunc_derivativeOnce_mul]
    exact toRatFunc_derivative_congr (by rw [toRatFunc_mul, h]) 1
  rw [hrule, ← h]
  ring

/-- The quotient rule for the quotient that a division returns. -/
lemma derivative_div? (r : RationalFunction) (hs : s.isZero = false) :
    ∃ q t, r.div? s = .ok q
      ∧ (r.derivative 1 * s - r * s.derivative 1).div? (s * s) = .ok t
      ∧ (q.derivative 1 == t) = true := by
  have hs0 := toRatFunc_ne_zero_iff.mpr hs
  have hss : (s * s).isZero = false := by
    rw [← toRatFunc_ne_zero_iff, toRatFunc_mul]
    exact mul_ne_zero hs0 hs0
  obtain ⟨q, hq, hqval⟩ := div?_eq_ok r hs
  obtain ⟨t, ht, htval⟩ := div?_eq_ok (r.derivative 1 * s - r * s.derivative 1) hss
  refine ⟨q, t, hq, ht, ?_⟩
  have hmul : q.toRatFunc * s.toRatFunc = r.toRatFunc := by
    rw [hqval, div_mul_cancel₀ _ hs0]
  rw [beq_iff_toRatFunc, htval, toRatFunc_mul s s, eq_div_iff (mul_ne_zero hs0 hs0), toRatFunc_sub,
    toRatFunc_mul, toRatFunc_mul]
  exact toRatFunc_derivativeOnce_of_mul hmul

/-! ### Polynomials -/

lemma toRatFunc_derivativeOnce_ofPolynomial (p : Polynomial) :
    (ofPolynomial p).derivativeOnce.toRatFunc
      = algebraMap ℚ[X] (RatFunc ℚ) p.toPoly.derivative := by
  rw [toRatFunc_derivativeOnce, toRatFunc, (ofPolynomial p).toPoly_quotientRule.1,
    (ofPolynomial p).toPoly_quotientRule.2]
  simp [ofPolynomial]

/-- As a rational function a polynomial has the same derivatives. -/
lemma toRatFunc_derivative_ofPolynomial (p : Polynomial) (n : ℕ) :
    ((ofPolynomial p).derivative n).toRatFunc
      = algebraMap ℚ[X] (RatFunc ℚ) (p.derivative n).toPoly := by
  induction n with
  | zero => rw [Polynomial.toPoly_derivative, derivative, toRatFunc_ofPolynomial]; rfl
  | succ n ih =>
      have hstep : ((ofPolynomial p).derivative n).toRatFunc
          = (ofPolynomial (p.derivative n)).toRatFunc := by
        rw [ih, toRatFunc_ofPolynomial]
      calc ((ofPolynomial p).derivative (n + 1)).toRatFunc
          = (ofPolynomial (p.derivative n)).derivativeOnce.toRatFunc :=
            toRatFunc_derivative_congr hstep 1
        _ = algebraMap ℚ[X] (RatFunc ℚ) (p.derivative n).toPoly.derivative :=
            toRatFunc_derivativeOnce_ofPolynomial _
        _ = algebraMap ℚ[X] (RatFunc ℚ) (p.derivative (n + 1)).toPoly := by
            rw [Polynomial.toPoly_derivative, Polynomial.toPoly_derivative,
              Function.iterate_succ_apply']

/-- **Differentiation is a derivation.** The derivative of a sum is the sum of the derivatives,
and products and quotients have the product rule and the quotient rule. Equal functions have
derivatives with the same coefficients, from the first order on. Read as a rational function, a
polynomial has the derivatives that it has as a polynomial. -/
theorem derivative_derivation :
    (∀ r s : RationalFunction,
      ((r + s).derivative 1 == r.derivative 1 + s.derivative 1) = true
      ∧ ((r * s).derivative 1 == r.derivative 1 * s + r * s.derivative 1) = true
      ∧ (s.isZero = false → ∃ q t, r.div? s = .ok q
          ∧ (r.derivative 1 * s - r * s.derivative 1).div? (s * s) = .ok t
          ∧ (q.derivative 1 == t) = true)
      ∧ ((r == s) = true → ∀ n, 1 ≤ n →
          (r.derivative n).numerator.coefficients = (s.derivative n).numerator.coefficients
          ∧ (r.derivative n).denominator.coefficients = (s.derivative n).denominator.coefficients))
    ∧ ∀ (p : Polynomial) (n : ℕ),
      (Value.function ((ofPolynomial p).derivative n)).same (.polynomial (p.derivative n))
        = true := by
  refine ⟨fun r s => ⟨?_, ?_, derivative_div? r, fun h n hn => ?_⟩, fun p n => ?_⟩
  · rw [beq_iff_toRatFunc, toRatFunc_add]
    exact toRatFunc_derivativeOnce_add r s
  · rw [beq_iff_toRatFunc, toRatFunc_add, toRatFunc_mul, toRatFunc_mul]
    exact toRatFunc_derivativeOnce_mul r s
  · rw [Polynomial.coefficients_eq_iff, Polynomial.coefficients_eq_iff]
    exact toPoly_derivative_congr (beq_iff_toRatFunc.mp h) hn
  · change (Value.ofQuotient (.inr _)).same (Value.ofQuotient (.inl _)) = true
    rw [Value.same_ofQuotient_iff]
    exact (toRatFunc_derivative_ofPolynomial p n).trans (toRatFunc_ofPolynomial _).symm

/-- The quotients `(x² - 1) / (x² - x)` and `(2x + 2) / 2x` of one function, which is divided by
`3x / 3x²`. The second derivative is `2 / x³` for both. -/
theorem derivative_derivation_unreduced :
    let r : RationalFunction :=
      ⟨.ofList [-1, 0, 1] none, .ofList [0, -1, 1] none, by decide +kernel⟩
    let r' : RationalFunction := ⟨.ofList [2, 2] none, .ofList [0, 2] none, by decide +kernel⟩
    let s : RationalFunction := ⟨.ofList [0, 3] none, .ofList [0, 0, 3] none, by decide +kernel⟩
    (r == r') = true ∧ s.isZero = false
      ∧ (∃ q t, r.div? s = .ok q
        ∧ (r.derivative 1 * s - r * s.derivative 1).div? (s * s) = .ok t
        ∧ (q.derivative 1 == t) = true)
      ∧ (r.derivative 2).numerator.coefficients = (r'.derivative 2).numerator.coefficients
      ∧ (r.derivative 2).denominator.coefficients = (r'.derivative 2).denominator.coefficients
      ∧ (r'.derivative 2).numerator.coefficients = [2]
      ∧ (r'.derivative 2).denominator.coefficients = [0, 0, 0, 1] := by
  intro r r' s
  have hr : (r == r') = true := by decide +kernel
  have hs : s.isZero = false := by decide +kernel
  obtain ⟨-, -, hquotient, -⟩ := derivative_derivation.1 r s
  obtain ⟨-, -, -, hcongr⟩ := derivative_derivation.1 r r'
  obtain ⟨hnum, hden⟩ := hcongr hr 2 (by decide)
  exact ⟨hr, hs, hquotient hs, hnum, hden, by decide +kernel, by decide +kernel⟩

end ExactAlgebra.RationalFunction
