import Mathlib.Algebra.Polynomial.Roots
import Mathlib.Data.List.TFAE
import ExactAlgebra.Proofs.RationalFunction.Reduced
import ExactAlgebra.Value.Equality

/-!
The canonical form decides equality.

* **Three notions of equality.** Equal cross products, equal canonical forms, and equal values
  wherever both functions have one are the same relation (`simplify_eq_iff_toRatFunc`,
  `eval?_eq_iff_toRatFunc`). For the last one: two polynomials that agree where a third one does
  not vanish are equal (`eq_of_eval_eq_of_ne_zero`).
* **Polynomials among rational functions.** As values, polynomials and rational functions are
  equal when they stand for one element of `ℚ(X)` (`same_ofQuotient_iff`).

Main statement: `simplify_canonical`.
-/

open Polynomial

namespace ExactAlgebra

/-- Two polynomials that agree wherever a nonzero polynomial does not vanish are equal. -/
lemma eq_of_eval_eq_of_ne_zero {p q d : ℚ[X]} (hd : d ≠ 0)
    (h : ∀ x, d.eval x ≠ 0 → p.eval x = q.eval x) : p = q := by
  -- the multiples by `d` agree everywhere
  have hmul : p * d = q * d := Polynomial.funext fun x => by
    rw [eval_mul, eval_mul]
    by_cases hx : d.eval x = 0
    · rw [hx, mul_zero, mul_zero]
    · rw [h x hx]
  exact mul_right_cancel₀ hd hmul

namespace RationalFunction

variable {r s : RationalFunction}

/-! ### Three notions of equality -/

/-- Canonical forms are equal when the functions are. -/
lemma simplify_eq_iff_toRatFunc :
    r.simplify.numerator.coefficients = s.simplify.numerator.coefficients
        ∧ r.simplify.denominator.coefficients = s.simplify.denominator.coefficients ↔
      r.toRatFunc = s.toRatFunc := by
  rw [Polynomial.coefficients_eq_iff, Polynomial.coefficients_eq_iff]
  constructor
  · rintro ⟨hnum, hden⟩
    rw [← toRatFunc_simplify r, ← toRatFunc_simplify s, toRatFunc, toRatFunc, hnum, hden]
  · intro h
    refine r.isReduced_simplify.ext s.isReduced_simplify ?_
    rw [toRatFunc_simplify, toRatFunc_simplify, h]

/-- Functions with equal values, wherever both have one, are equal. -/
lemma eval?_eq_iff_toRatFunc :
    (∀ x, r.denominator.eval x ≠ 0 → s.denominator.eval x ≠ 0 →
        ∃ v, r.eval? x = .ok v ∧ s.eval? x = .ok v) ↔
      r.toRatFunc = s.toRatFunc := by
  simp only [eval?_eq_ok_iff, Polynomial.eval_eq, toRatFunc_eq_iff]
  constructor
  · intro h
    have hd : r.denominator.toPoly * s.denominator.toPoly ≠ 0 :=
      mul_ne_zero r.toPoly_denominator_ne_zero s.toPoly_denominator_ne_zero
    refine eq_of_eval_eq_of_ne_zero hd fun x hx => ?_
    rw [eval_mul] at hx
    obtain ⟨v, ⟨_, hr⟩, _, hs⟩ := h x (left_ne_zero_of_mul hx) (right_ne_zero_of_mul hx)
    rw [eval_mul, eval_mul, ← hr, ← hs]
    ring
  · intro h x hr hs
    have hx := congrArg (fun f : ℚ[X] => f.eval x) h
    simp only [eval_mul] at hx
    refine ⟨r.numerator.toPoly.eval x / r.denominator.toPoly.eval x,
      ⟨hr, div_mul_cancel₀ _ hr⟩, hs, ?_⟩
    rw [div_mul_eq_mul_div, hx, mul_div_assoc, div_self hr, mul_one]

/-! ### The canonical form -/

lemma gcd_simplify (r : RationalFunction) :
    (r.simplify.numerator.gcd r.simplify.denominator).coefficients = [1] := by
  have h := Polynomial.toPoly_gcd_eq_one r.simplify.denominator_ne_zero r.isReduced_simplify.coprime
  rw [← Polynomial.coefficients_const 1 none, Polynomial.coefficients_eq_iff, h]
  simp

/-- The canonical form `0 / 1` is that of zero. -/
lemma isZero_iff_simplify :
    r.isZero = true ↔
      r.simplify.numerator.coefficients = [0] ∧ r.simplify.denominator.coefficients = [1] := by
  rw [← Polynomial.coefficients_const 0 none, ← Polynomial.coefficients_const 1 none,
    Polynomial.coefficients_eq_iff, Polynomial.coefficients_eq_iff, Polynomial.toPoly_const,
    Polynomial.toPoly_const, C_0, C_1, isZero, ← Polynomial.toPoly_eq_zero_iff]
  constructor
  · intro h
    refine r.isReduced_simplify.toPoly_eq isCoprime_one_right monic_one ?_
    rw [toRatFunc_simplify, toRatFunc, h, map_zero, zero_div, zero_div]
  · rintro ⟨h, _⟩
    obtain ⟨k, _, hnum, _⟩ := r.exists_eq_mul_simplify
    rw [hnum, h, mul_zero]

end RationalFunction

/-! ### Polynomials among rational functions -/

namespace Value

open RationalFunction

/-- A polynomial or a rational function, as a value. -/
def ofQuotient : Polynomial ⊕ RationalFunction → Value
  | .inl p => polynomial p
  | .inr r => function r

/-- The rational function that a polynomial or a rational function is read as. -/
def quotientFunction : Polynomial ⊕ RationalFunction → RationalFunction
  | .inl p => ofPolynomial p
  | .inr r => r

lemma function_beq_comm (r s : RationalFunction) : (r == s) = (s == r) := by
  rw [Bool.eq_iff_iff, beq_iff_toRatFunc, beq_iff_toRatFunc, eq_comm]

/-- Two polynomials are equal when they are equal as rational functions. -/
lemma beq_ofPolynomial (p q : Polynomial) : (ofPolynomial p == ofPolynomial q) = (p == q) := by
  rw [Bool.eq_iff_iff, beq_iff_toRatFunc, Polynomial.beq_iff_toPoly, toRatFunc_ofPolynomial,
    toRatFunc_ofPolynomial, (RatFunc.algebraMap_injective ℚ).eq_iff]

/-- Polynomials and rational functions are compared as rational functions. -/
lemma same_ofQuotient (a b : Polynomial ⊕ RationalFunction) :
    (ofQuotient a).same (ofQuotient b) = (quotientFunction a == quotientFunction b) := by
  match a, b with
  | .inl p, .inl q => exact (beq_ofPolynomial p q).symm
  | .inl p, .inr s => exact function_beq_comm s (ofPolynomial p)
  | .inr r, .inl q => rfl
  | .inr r, .inr s => rfl

/-- Polynomials and rational functions are equal when they stand for one element of
`ℚ(X)`. -/
lemma same_ofQuotient_iff (a b : Polynomial ⊕ RationalFunction) :
    (ofQuotient a).same (ofQuotient b) = true ↔
      (quotientFunction a).toRatFunc = (quotientFunction b).toRatFunc := by
  rw [same_ofQuotient, beq_iff_toRatFunc]

end Value

namespace RationalFunction

/-- **The canonical form decides equality.** Equality of cross products, equality of canonical
forms and equality of values wherever neither denominator vanishes are one relation. The
canonical form is equal to the function, its denominator is monic, numerator and denominator
have the greatest common divisor one, and it is `0 / 1` for zero alone. Hence equality
is an equivalence relation on polynomials and rational functions taken together, where a
polynomial is compared as the function it is read as. -/
theorem simplify_canonical :
    (∀ r s : RationalFunction, List.TFAE
      [(r == s) = true,
        r.simplify.numerator.coefficients = s.simplify.numerator.coefficients
          ∧ r.simplify.denominator.coefficients = s.simplify.denominator.coefficients,
        ∀ x, r.denominator.eval x ≠ 0 → s.denominator.eval x ≠ 0 →
          ∃ v, r.eval? x = .ok v ∧ s.eval? x = .ok v])
    ∧ (∀ r : RationalFunction, (r.simplify == r) = true
        ∧ r.simplify.denominator.isMonic = true
        ∧ (r.simplify.numerator.gcd r.simplify.denominator).coefficients = [1]
        ∧ (r.isZero = true ↔ r.simplify.numerator.coefficients = [0]
            ∧ r.simplify.denominator.coefficients = [1]))
    ∧ Equivalence (fun a b : Polynomial ⊕ RationalFunction =>
        (Value.ofQuotient a).same (Value.ofQuotient b) = true)
    ∧ ∀ (p : Polynomial) (r : RationalFunction),
        (Value.polynomial p).same (.function r) = (ofPolynomial p == r)
          ∧ (Value.function r).same (.polynomial p) = (r == ofPolynomial p) := by
  refine ⟨fun r s => ?_, fun r => ⟨?_, ?_, r.gcd_simplify, isZero_iff_simplify⟩, ?_, fun p r => ?_⟩
  · tfae_have 1 ↔ 2 := beq_iff_toRatFunc.trans simplify_eq_iff_toRatFunc.symm
    tfae_have 1 ↔ 3 := beq_iff_toRatFunc.trans eval?_eq_iff_toRatFunc.symm
    tfae_finish
  · rw [beq_iff_toRatFunc, toRatFunc_simplify]
  · rw [Polynomial.isMonic, decide_eq_true_eq, Polynomial.leadingCoefficient_eq]
    exact r.monic_simplify
  · simp only [Value.same_ofQuotient_iff]
    exact ⟨fun _ => rfl, Eq.symm, Eq.trans⟩
  · exact ⟨Value.same_ofQuotient (.inl p) (.inr r), Value.same_ofQuotient (.inr r) (.inl p)⟩

end RationalFunction

end ExactAlgebra
