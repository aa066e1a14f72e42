import ExactAlgebra.Proofs.PartialFractions.Decompose
import ExactAlgebra.Value.Operators

/-!
Proper rational functions.

A function is proper when its numerator has the smaller degree, where the degree of zero is below
every other one, and a common factor adds its degree on both sides.

* **Independence.** Equal cross products have equal degrees, so being proper belongs to the function
  and not to the quotient that is written (`isProper_congr`).
* **Operations.** The denominators of sums, differences, products and derivatives are products, and
  every term of a numerator is the product of a smaller and of a no larger factor
  (`degree_mul_lt_mul`).
* **The polynomial part.** A decomposition has the quotient of numerator and denominator, which is
  zero for proper functions only, and without it the remainder is left
  (`isProper_sub_ofPolynomial`).

Main statement: `proper_functions`.
-/

open Polynomial

namespace ExactAlgebra.RationalFunction

variable {r s : RationalFunction}

/-! ### Independence of the quotient -/

/-- Equal functions are proper together. -/
lemma isProper_congr (h : r.toRatFunc = s.toRatFunc) : r.isProper = s.isProper := by
  rw [Bool.eq_iff_iff, isProper_iff_degree, isProper_iff_degree,
    ← degree_mul_lt_mul_iff s.toPoly_denominator_ne_zero, toRatFunc_eq_iff.mp h,
    mul_comm r.denominator.toPoly, degree_mul_lt_mul_iff r.toPoly_denominator_ne_zero]

lemma isProper_simplify (r : RationalFunction) : r.simplify.isProper = r.isProper :=
  isProper_congr r.toRatFunc_simplify

/-! ### Operations -/

lemma isProper_mul (hr : r.isProper = true) (hs : s.isProper = true) :
    (r * s).isProper = true := by
  rw [isProper_iff_degree] at hr hs ⊢
  rw [(toPoly_mul r s).1, (toPoly_mul r s).2]
  exact degree_mul_lt_mul s.toPoly_denominator_ne_zero hr hs.le

lemma isProper_add (hr : r.isProper = true) (hs : s.isProper = true) :
    (r + s).isProper = true := by
  rw [isProper_iff_degree] at hr hs ⊢
  rw [(toPoly_add r s).1, (toPoly_add r s).2]
  exact lt_of_le_of_lt (degree_add_le _ _) (degree_cross_products_lt hr hs)

lemma isProper_sub (hr : r.isProper = true) (hs : s.isProper = true) :
    (r - s).isProper = true := by
  rw [isProper_iff_degree] at hr hs ⊢
  rw [(toPoly_sub r s).1, (toPoly_sub r s).2]
  exact lt_of_le_of_lt (degree_sub_le _ _) (degree_cross_products_lt hr hs)

/-- Both terms of the quotient rule differentiate one factor, which does not raise its degree. -/
lemma isProper_quotientRule (hr : r.isProper = true) : r.quotientRule.isProper = true := by
  have hd := r.toPoly_denominator_ne_zero
  rw [isProper_iff_degree] at hr ⊢
  rw [r.toPoly_quotientRule.1, r.toPoly_quotientRule.2]
  refine lt_of_le_of_lt (degree_sub_le _ _) (max_lt ?_ ?_)
  · exact degree_mul_lt_mul hd (lt_of_le_of_lt degree_derivative_le hr) le_rfl
  · exact degree_mul_lt_mul hd hr degree_derivative_le

lemma isProper_derivative (hr : r.isProper = true) (n : ℕ) : (r.derivative n).isProper = true := by
  induction n with
  | zero => exact hr
  | succ n ih =>
      rw [derivative, derivativeOnce_eq, isProper_simplify]
      exact isProper_quotientRule ih

/-! ### The polynomial part -/

/-- Numerator and denominator have the quotient zero when the function is proper. -/
lemma isZero_div_iff_isProper (r : RationalFunction) :
    (r.numerator / r.denominator).isZero = true ↔ r.isProper = true := by
  rw [← Polynomial.toPoly_eq_zero_iff, Polynomial.toPoly_div _ r.denominator_ne_zero,
    Polynomial.div_eq_zero_iff r.toPoly_denominator_ne_zero, isProper_iff_degree]

/-- Without the quotient of numerator and denominator, the remainder over the denominator is
left. -/
lemma isProper_sub_ofPolynomial {q : Polynomial}
    (hq : (r.numerator / r.denominator).toPoly = q.toPoly) :
    (r - ofPolynomial q).isProper = true := by
  have hrest : (r - ofPolynomial q).numerator.toPoly
      = (r.numerator % r.denominator).toPoly := by
    rw [(toPoly_sub r (ofPolynomial q)).1,
      ← Polynomial.toPoly_div_add_mod r.numerator r.denominator_ne_zero, hq]
    simp [ofPolynomial]
  have hden : (r - ofPolynomial q).denominator.toPoly = r.denominator.toPoly := by
    rw [(toPoly_sub r (ofPolynomial q)).2]
    simp [ofPolynomial]
  rw [isProper_iff_degree, hrest, hden]
  exact Polynomial.degree_toPoly_mod_lt r.numerator r.denominator_ne_zero

/-- **Being proper belongs to the function.** Equal functions are proper together, whatever
quotients are written. Sum, difference and product of proper functions are proper, and so are the
canonical form and the derivatives of every order of a proper function. A decomposition into partial
fractions has the polynomial part zero exactly for a proper function, and the difference of the
function and its polynomial part is proper. -/
theorem proper_functions :
    (∀ r s : RationalFunction, (r == s) = true → r.isProper = s.isProper)
    ∧ (∀ r s : RationalFunction, r.isProper = true → s.isProper = true →
      (r + s).isProper = true ∧ (r - s).isProper = true ∧ (r * s).isProper = true
      ∧ r.simplify.isProper = true ∧ ∀ n, (r.derivative n).isProper = true)
    ∧ ∀ (r : RationalFunction) (limit : ℤ) (d : Decomposition),
      r.partialFractions limit = .ok d →
      (d.quotient.isZero = true ↔ r.isProper = true)
      ∧ ∃ t, Value.sub (.function r) (.polynomial d.quotient) = .ok (.function t)
        ∧ t.isProper = true := by
  refine ⟨fun r s h => isProper_congr (beq_iff_toRatFunc.mp h), fun r s hr hs => ?_,
    fun r limit d h => ?_⟩
  · exact ⟨isProper_add hr hs, isProper_sub hr hs, isProper_mul hr hs,
      (isProper_simplify r).trans hr, isProper_derivative hr⟩
  · obtain ⟨parts, hexp⟩ := exists_isExpansion_of_eq_ok h
    refine ⟨?_, _, rfl, isProper_sub_ofPolynomial hexp.quotient_eq⟩
    rw [← isZero_div_iff_isProper, ← Polynomial.toPoly_eq_zero_iff,
      ← Polynomial.toPoly_eq_zero_iff, hexp.quotient_eq]

/-- The proper functions `(x² + x) / x³` and `0 / (x - 5)`, the quotient `(x + 1) / x²` that is
equal to the first one, and the function `(x³ - x + 1) / (x² - x)` with the polynomial part
`x + 1`. -/
theorem proper_functions_unreduced :
    let r : RationalFunction :=
      ⟨.ofList [0, 1, 1] none, .ofRoots [0, 0, 0] none, Polynomial.isZero_ofRoots [0, 0, 0] none⟩
    let r' : RationalFunction :=
      ⟨.ofList [1, 1] none, .ofRoots [0, 0] none, Polynomial.isZero_ofRoots [0, 0] none⟩
    let s : RationalFunction := ⟨.zero none, .linear 5 none, Polynomial.isZero_linear 5 none⟩
    let t : RationalFunction :=
      ⟨.ofList [1, -1, 0, 1] none, .ofRoots [0, 1] none, Polynomial.isZero_ofRoots [0, 1] none⟩
    let d : Decomposition := ⟨.ofList [1, 1] none, [⟨0, 1, -1⟩, ⟨1, 1, 1⟩]⟩
    (r == r') = true ∧ r.isProper = r'.isProper
      ∧ r.isProper = true ∧ s.isProper = true
      ∧ (r + s).isProper = true ∧ (r - s).isProper = true ∧ (r * s).isProper = true
      ∧ r.simplify.isProper = true ∧ (r.derivative 3).isProper = true
      ∧ t.partialFractions 5 = .ok d
      ∧ (d.quotient.isZero = true ↔ t.isProper = true) ∧ t.isProper = false
      ∧ ∃ u, Value.sub (.function t) (.polynomial d.quotient) = .ok (.function u)
        ∧ u.isProper = true := by
  intro r r' s t d
  have heq : (r == r') = true := by decide +kernel
  have hr : r.isProper = true := by decide +kernel
  have hs : s.isProper = true := by decide +kernel
  have ht : t.partialFractions 5 = .ok d := by decide +kernel
  obtain ⟨hcongr, hoperations, hpart⟩ := proper_functions
  obtain ⟨hadd, hsub, hmul, hsimplify, hderivative⟩ := hoperations r s hr hs
  exact ⟨heq, hcongr r r' heq, hr, hs, hadd, hsub, hmul, hsimplify, hderivative 3, ht,
    (hpart t 5 d ht).1, by decide +kernel, (hpart t 5 d ht).2⟩

end ExactAlgebra.RationalFunction
