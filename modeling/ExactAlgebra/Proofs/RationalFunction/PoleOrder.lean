import ExactAlgebra.Proofs.RationalFunction.Derivation
import ExactAlgebra.Proofs.RationalFunction.Poles

/-!
The poles of the derivatives of a rational function.

* **One step.** Of the two products in `n' d - n d'`, for a reduced function, the second has the
  smaller multiplicity at a pole, one less than the denominator
  (`multiplicityAt_quotientRule_numerator`). What is cancelled against `d²` leaves one power of
  `x - a` more than there was (`multiplicityAt_derivativeOnce`).
* **All steps.** Every derivative of a reduced function is reduced again, so that the order of a
  pole grows by one at every step (`multiplicityAt_derivative`), and no pole is created or lost
  (`eval_denominator_derivative_eq_zero_iff`).

Main statement: `derivative_poles`.
-/

open Polynomial

namespace ExactAlgebra.RationalFunction

variable {r : RationalFunction} {a : ℚ}

/-! ### One step -/

/-- At a pole of a reduced function, the numerator of the quotient rule has one power of `x - a`
less than the denominator of the function. -/
lemma multiplicityAt_quotientRule_numerator (hr : r.IsReduced)
    (ha : r.denominator.toPoly.eval a = 0) :
    multiplicityAt a r.quotientRule.numerator.toPoly + 1
      = multiplicityAt a r.denominator.toPoly := by
  -- the numerator does not vanish at a pole
  have hnum : multiplicityAt a r.numerator.toPoly = 0 :=
    (multiplicityAt_eq_zero_or_of_isCoprime hr.coprime a).resolve_right
      (multiplicityAt_ne_zero_iff.mpr ha)
  have hsecond : multiplicityAt a (r.numerator.toPoly * r.denominator.toPoly.derivative)
      = multiplicityAt a r.denominator.toPoly.derivative := by
    rw [multiplicityAt_mul, hnum, zero_add]
  have hlt : multiplicityAt a (r.numerator.toPoly * r.denominator.toPoly.derivative)
      < multiplicityAt a (r.numerator.toPoly.derivative * r.denominator.toPoly) :=
    calc multiplicityAt a (r.numerator.toPoly * r.denominator.toPoly.derivative)
        = multiplicityAt a r.denominator.toPoly.derivative := hsecond
      _ < multiplicityAt a r.denominator.toPoly :=
          multiplicityAt_derivative_lt r.toPoly_denominator_ne_zero ha
      _ ≤ multiplicityAt a (r.numerator.toPoly.derivative * r.denominator.toPoly) := by
          rw [multiplicityAt_mul]
          exact le_add_self
  rw [r.toPoly_quotientRule.1, multiplicityAt_sub_of_lt hlt, hsecond,
    multiplicityAt_derivative_add_one ha]

/-- The canonical form keeps the difference of the multiplicities in its denominator. -/
lemma multiplicityAt_simplify_denominator
    (h : multiplicityAt a r.numerator.toPoly ≤ multiplicityAt a r.denominator.toPoly) :
    multiplicityAt a r.denominator.toPoly
      = multiplicityAt a r.numerator.toPoly + multiplicityAt a r.simplify.denominator.toPoly := by
  obtain ⟨k, hk, hcoprime, hnum, hden⟩ := r.exists_eq_mul_isCoprime
  rw [hnum, hden] at h ⊢
  exact multiplicityAt_mul_eq_add hcoprime hk h

/-- A derivative of a reduced function has a pole of one order more. -/
lemma multiplicityAt_derivativeOnce (hr : r.IsReduced) (ha : r.denominator.toPoly.eval a = 0) :
    multiplicityAt a r.derivativeOnce.denominator.toPoly
      = multiplicityAt a r.denominator.toPoly + 1 := by
  have hnum := multiplicityAt_quotientRule_numerator hr ha
  have hden : multiplicityAt a r.quotientRule.denominator.toPoly
      = multiplicityAt a r.denominator.toPoly + multiplicityAt a r.denominator.toPoly := by
    rw [r.toPoly_quotientRule.2, multiplicityAt_mul]
  have hle : multiplicityAt a r.quotientRule.numerator.toPoly
      ≤ multiplicityAt a r.quotientRule.denominator.toPoly := by
    rw [hden, ← hnum]
    exact le_add_right le_self_add
  have hfinite : multiplicityAt a r.quotientRule.numerator.toPoly ≠ ⊤ := fun h =>
    multiplicityAt_ne_top r.toPoly_denominator_ne_zero (by rw [← hnum, h, top_add])
  -- all powers in the numerator are cancelled against the `2 m` ones in `d²`
  refine ENat.add_right_injective_of_ne_top hfinite ?_
  calc multiplicityAt a r.quotientRule.numerator.toPoly
        + multiplicityAt a r.derivativeOnce.denominator.toPoly
      = multiplicityAt a r.denominator.toPoly + multiplicityAt a r.denominator.toPoly :=
        (multiplicityAt_simplify_denominator hle).symm.trans hden
    _ = multiplicityAt a r.quotientRule.numerator.toPoly + 1
          + multiplicityAt a r.denominator.toPoly := by rw [hnum]
    _ = multiplicityAt a r.quotientRule.numerator.toPoly
          + (multiplicityAt a r.denominator.toPoly + 1) := by rw [add_assoc, add_comm 1]

/-! ### All steps -/

/-- The order of a pole of a reduced function grows by one at every step. -/
lemma multiplicityAt_derivative (hr : r.IsReduced) (ha : r.denominator.toPoly.eval a = 0)
    (n : ℕ) :
    (r.derivative n).IsReduced
      ∧ multiplicityAt a (r.derivative n).denominator.toPoly
        = multiplicityAt a r.denominator.toPoly + n := by
  induction n with
  | zero => exact ⟨hr, (add_zero _).symm⟩
  | succ n ih =>
      obtain ⟨hreduced, horder⟩ := ih
      have hpole : (r.derivative n).denominator.toPoly.eval a = 0 :=
        eval_eq_zero_of_multiplicityAt_le (horder ▸ le_self_add) ha
      refine ⟨isReduced_simplify _, ?_⟩
      rw [derivative, multiplicityAt_derivativeOnce hreduced hpole, horder, add_assoc,
        Nat.cast_add_one]

/-- From the first order on, the derivatives have the denominators of those of the canonical
form. -/
lemma toPoly_denominator_derivative_simplify (r : RationalFunction) {n : ℕ} (hn : 1 ≤ n) :
    (r.simplify.derivative n).denominator.toPoly = (r.derivative n).denominator.toPoly :=
  (toPoly_derivative_congr (toRatFunc_simplify r) hn).2

/-- The order of a pole of the canonical form grows by the order of the derivative. -/
lemma multiplicityAt_derivative_of_pole (ha : r.simplify.denominator.toPoly.eval a = 0) {n : ℕ}
    (hn : 1 ≤ n) :
    multiplicityAt a (r.derivative n).denominator.toPoly
      = multiplicityAt a r.simplify.denominator.toPoly + n := by
  rw [← toPoly_denominator_derivative_simplify r hn]
  exact (multiplicityAt_derivative r.isReduced_simplify ha n).2

/-- The derivatives have the poles of the canonical form. -/
lemma eval_denominator_derivative_eq_zero_iff {n : ℕ} (hn : 1 ≤ n) :
    (r.derivative n).denominator.toPoly.eval a = 0 ↔
      r.simplify.denominator.toPoly.eval a = 0 := by
  constructor
  · contrapose
    rw [← toPoly_denominator_derivative_simplify r hn]
    exact fun h => eval_denominator_derivative h n
  · intro h
    exact eval_eq_zero_of_multiplicityAt_le
      (multiplicityAt_derivative_of_pole h hn ▸ le_self_add) h

/-- **Differentiation moves poles by one order at a time.** A point of multiplicity `m` in the
denominator of the canonical form has the multiplicity `m + n` in the denominator of the `n`-th
derivative when it is a root, and the denominator does not vanish there when it is none. So a
derivative is refused a value, as a division by zero, where the canonical form is. -/
theorem derivative_poles (r : RationalFunction) (n : ℕ) (hn : 1 ≤ n) (a : ℚ) :
    (∃ m : ℕ, multiplicityAt a r.simplify.denominator.toPoly = m
      ∧ (1 ≤ m → multiplicityAt a (r.derivative n).denominator.toPoly = (m + n : ℕ))
      ∧ (m = 0 → (r.derivative n).denominator.eval a ≠ 0))
    ∧ (failure ((r.derivative n).eval? a) = some .divisionByZero ↔
        failure (r.simplify.eval? a) = some .divisionByZero) := by
  constructor
  · -- a denominator is not zero, so that its multiplicities are finite
    obtain ⟨m, hm⟩ := ENat.ne_top_iff_exists.mp
      (multiplicityAt_ne_top r.simplify.toPoly_denominator_ne_zero (a := a))
    refine ⟨m, hm.symm, fun hpos => ?_, fun hzero => ?_⟩
    · have ha : r.simplify.denominator.toPoly.eval a = 0 := by
        rw [← multiplicityAt_ne_zero_iff, ← hm, Nat.cast_ne_zero]
        exact Nat.one_le_iff_ne_zero.mp hpos
      rw [multiplicityAt_derivative_of_pole ha hn, ← hm, Nat.cast_add]
    · rw [Polynomial.eval_eq, Ne, eval_denominator_derivative_eq_zero_iff hn, ← Ne,
        ← multiplicityAt_eq_zero_iff, ← hm, hzero, Nat.cast_zero]
  · rw [failure_eval?_eq_iff, failure_eval?_eq_iff, eval_denominator_derivative_eq_zero_iff hn]

/-- The quotient of `x (x - 1)` by `x³ (x - 1)`, which is `1 / x²`: the second derivative has a pole
of order four at zero and none at one. -/
theorem derivative_poles_unreduced :
    let r : RationalFunction :=
      ⟨.ofList [0, -1, 1] none, .ofList [0, 0, 0, -1, 1] none, by decide +kernel⟩
    1 ≤ 2 ∧ multiplicityAt 0 r.simplify.denominator.toPoly = 2
      ∧ multiplicityAt 0 (r.derivative 2).denominator.toPoly = 4
      ∧ failure ((r.derivative 2).eval? 0) = some .divisionByZero
      ∧ failure (r.eval? 1) = some .divisionByZero
      ∧ multiplicityAt 1 r.simplify.denominator.toPoly = 0
      ∧ (r.derivative 2).denominator.eval 1 ≠ 0 := by
  intro r
  have hsquare : r.simplify.denominator.toPoly = (X - C 0) ^ 2 := by
    have hcoefficients : r.simplify.denominator.coefficients
        = (Polynomial.linear 0 none ^ 2).coefficients := by decide +kernel
    rw [Polynomial.coefficients_eq_iff.mp hcoefficients, Polynomial.toPoly_pow,
      Polynomial.toPoly_linear]
  have hregular : multiplicityAt 1 r.simplify.denominator.toPoly = 0 := by
    rw [hsquare, multiplicityAt_eq_zero_iff]
    simp
  have hpole : multiplicityAt 0 r.simplify.denominator.toPoly = 2 := by
    rw [hsquare, multiplicityAt_X_sub_C_pow]
    rfl
  obtain ⟨⟨m, hm, horder, -⟩, hrefused⟩ := derivative_poles r 2 (by decide) 0
  obtain ⟨⟨m', hm', -, hvalue⟩, -⟩ := derivative_poles r 2 (by decide) 1
  have hm2 : m = 2 := by
    rw [hpole] at hm
    exact_mod_cast hm.symm
  have hm0 : m' = 0 := by
    rw [hregular] at hm'
    exact_mod_cast hm'.symm
  subst hm2
  exact ⟨by decide, hpole, horder (by decide), hrefused.mpr (by decide +kernel),
    by decide +kernel, hregular, hvalue hm0⟩

end ExactAlgebra.RationalFunction
