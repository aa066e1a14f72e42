import Mathlib.FieldTheory.RatFunc.Basic
import ExactAlgebra.Proofs.Polynomial.Division
import ExactAlgebra.RationalFunction.Basic

/-!
Rational functions read in `ℚ(X)`, and their canonical form.

* **Degrees.** A function is proper when its numerator has the smaller degree in `ℚ[X]`
  (`isProper_iff_degree`). The cross products of proper fractions stay below the product of the
  denominators (`degree_cross_products_lt`).
* **The denotation.** `toRatFunc` is the quotient of numerator and denominator in the field
  of fractions. Equality of cross products is equality there (`beq_iff_toRatFunc`).
* **Sums and products.** Numerators and denominators of the unreduced results are those of the
  rules for fractions (`toPoly_add`, `toPoly_sub`, `toPoly_mul`), and the sum is the sum of the
  field (`toRatFunc_add`).
* **The canonical form.** `simplify` cancels one common factor (`exists_eq_mul_simplify`) and
  leaves a reduced function (`isReduced_simplify`), so that numerator and denominator are coprime
  polynomials times one factor (`exists_eq_mul_isCoprime`). A reduced function is determined by
  its denotation (`IsReduced.toPoly_eq`).
* **Values.** `eval?_eq_ok_iff` says what the value at a point is; `eval?_simplify` that
  cancelling keeps it.
-/

open Polynomial

namespace ExactAlgebra

/-! ### Degrees of products -/

/-- The product of a smaller factor and one that is not larger. -/
lemma degree_mul_lt_mul {n m d e : ℚ[X]} (he : e ≠ 0) (hn : n.degree < d.degree)
    (hm : m.degree ≤ e.degree) : (n * m).degree < (d * e).degree := by
  calc (n * m).degree = n.degree + m.degree := degree_mul
    _ ≤ n.degree + e.degree := by gcongr
    _ < d.degree + e.degree := WithBot.add_lt_add_right (degree_ne_bot.mpr he) hn
    _ = (d * e).degree := degree_mul.symm

/-- A common factor changes nothing in a comparison of degrees. -/
lemma degree_mul_lt_mul_iff {n d e : ℚ[X]} (he : e ≠ 0) :
    (n * e).degree < (d * e).degree ↔ n.degree < d.degree := by
  rw [degree_mul, degree_mul, WithBot.add_lt_add_iff_right (degree_ne_bot.mpr he)]

/-- The cross products of two proper fractions have a smaller degree than the product of their
denominators. -/
lemma degree_cross_products_lt {n d m e : ℚ[X]} (hn : n.degree < d.degree)
    (hm : m.degree < e.degree) : max (n * e).degree (m * d).degree < (d * e).degree := by
  refine max_lt (degree_mul_lt_mul (ne_zero_of_degree_gt hm) hn le_rfl) ?_
  rw [mul_comm d e]
  exact degree_mul_lt_mul (ne_zero_of_degree_gt hn) hm le_rfl

namespace RationalFunction

variable {r s : RationalFunction}

/-! ### The denotation -/

/-- The element of `ℚ(X)` that a rational function stands for. -/
noncomputable def toRatFunc (r : RationalFunction) : RatFunc ℚ :=
  algebraMap ℚ[X] (RatFunc ℚ) r.numerator.toPoly
    / algebraMap ℚ[X] (RatFunc ℚ) r.denominator.toPoly

/-- No denominator is zero in `ℚ[X]` either. -/
lemma toPoly_denominator_ne_zero (r : RationalFunction) : r.denominator.toPoly ≠ 0 :=
  Polynomial.toPoly_ne_zero_iff.mpr r.denominator_ne_zero

/-- A function is a quotient when the cross products are equal. -/
lemma toRatFunc_eq_div_iff {n d : ℚ[X]} (hd : d ≠ 0) :
    r.toRatFunc = algebraMap ℚ[X] (RatFunc ℚ) n / algebraMap ℚ[X] (RatFunc ℚ) d ↔
      r.numerator.toPoly * d = n * r.denominator.toPoly := by
  rw [toRatFunc, div_eq_div_iff (RatFunc.algebraMap_ne_zero r.toPoly_denominator_ne_zero)
      (RatFunc.algebraMap_ne_zero hd),
    ← map_mul, ← map_mul, (RatFunc.algebraMap_injective ℚ).eq_iff]

/-- Two quotients are equal when their cross products are. -/
lemma toRatFunc_eq_iff :
    r.toRatFunc = s.toRatFunc ↔
      r.numerator.toPoly * s.denominator.toPoly = s.numerator.toPoly * r.denominator.toPoly :=
  toRatFunc_eq_div_iff s.toPoly_denominator_ne_zero

/-- Functions are equal when they are the same element of `ℚ(X)`. -/
lemma beq_iff_toRatFunc : (r == s) = true ↔ r.toRatFunc = s.toRatFunc := by
  change (r.numerator * s.denominator == r.denominator * s.numerator) = true ↔ _
  rw [Polynomial.beq_iff_toPoly, Polynomial.toPoly_mul, Polynomial.toPoly_mul, toRatFunc_eq_iff,
    mul_comm r.denominator.toPoly]

/-- Proper functions are those whose numerator has the smaller degree, zero included. -/
lemma isProper_iff_degree :
    r.isProper = true ↔ r.numerator.toPoly.degree < r.denominator.toPoly.degree := by
  rw [isProper, decide_eq_true_eq, Polynomial.degree_lt_degree_iff r.denominator_ne_zero]

@[simp] lemma toRatFunc_ofPolynomial (p : Polynomial) :
    (ofPolynomial p).toRatFunc = algebraMap ℚ[X] (RatFunc ℚ) p.toPoly := by
  simp [toRatFunc, ofPolynomial]

/-! ### Sums and products -/

lemma toPoly_add (r s : RationalFunction) :
    (r + s).numerator.toPoly
        = r.numerator.toPoly * s.denominator.toPoly + s.numerator.toPoly * r.denominator.toPoly
      ∧ (r + s).denominator.toPoly = r.denominator.toPoly * s.denominator.toPoly := by
  change (r.numerator * s.denominator + s.numerator * r.denominator).toPoly = _
    ∧ (r.denominator * s.denominator).toPoly = _
  simp only [Polynomial.toPoly_add, Polynomial.toPoly_mul, and_self]

lemma toPoly_sub (r s : RationalFunction) :
    (r - s).numerator.toPoly
        = r.numerator.toPoly * s.denominator.toPoly - s.numerator.toPoly * r.denominator.toPoly
      ∧ (r - s).denominator.toPoly = r.denominator.toPoly * s.denominator.toPoly := by
  change (r.numerator * s.denominator - s.numerator * r.denominator).toPoly = _
    ∧ (r.denominator * s.denominator).toPoly = _
  simp only [Polynomial.toPoly_sub, Polynomial.toPoly_mul, and_self]

lemma toPoly_mul (r s : RationalFunction) :
    (r * s).numerator.toPoly = r.numerator.toPoly * s.numerator.toPoly
      ∧ (r * s).denominator.toPoly = r.denominator.toPoly * s.denominator.toPoly :=
  ⟨Polynomial.toPoly_mul _ _, Polynomial.toPoly_mul _ _⟩

@[simp] lemma toRatFunc_add (r s : RationalFunction) :
    (r + s).toRatFunc = r.toRatFunc + s.toRatFunc := by
  rw [toRatFunc, toRatFunc, toRatFunc, (toPoly_add r s).1, (toPoly_add r s).2,
    div_add_div _ _ (RatFunc.algebraMap_ne_zero r.toPoly_denominator_ne_zero)
      (RatFunc.algebraMap_ne_zero s.toPoly_denominator_ne_zero)]
  simp only [map_add, map_mul]
  ring

/-! ### The canonical form -/

/-- No common factor and a monic denominator. -/
structure IsReduced (r : RationalFunction) : Prop where
  coprime : IsCoprime r.numerator.toPoly r.denominator.toPoly
  monic : r.denominator.toPoly.Monic

/-- A function has one quotient of coprime polynomials with a monic denominator. -/
lemma IsReduced.toPoly_eq (hr : r.IsReduced) {n d : ℚ[X]} (hnd : IsCoprime n d) (hd : d.Monic)
    (h : r.toRatFunc = algebraMap ℚ[X] (RatFunc ℚ) n / algebraMap ℚ[X] (RatFunc ℚ) d) :
    r.numerator.toPoly = n ∧ r.denominator.toPoly = d := by
  rw [toRatFunc_eq_div_iff hd.ne_zero] at h
  have hrd : r.denominator.toPoly ∣ d :=
    hr.coprime.symm.dvd_of_dvd_mul_left ⟨n, by rw [h, mul_comm]⟩
  have hdr : d ∣ r.denominator.toPoly :=
    hnd.symm.dvd_of_dvd_mul_left ⟨r.numerator.toPoly, by rw [← h, mul_comm]⟩
  have hden : r.denominator.toPoly = d :=
    eq_of_monic_of_associated hr.monic hd (associated_of_dvd_dvd hrd hdr)
  rw [hden] at h
  exact ⟨mul_right_cancel₀ hd.ne_zero h, hden⟩

/-- A reduced function is determined by its denotation, up to labels. -/
lemma IsReduced.ext (hr : r.IsReduced) (hs : s.IsReduced) (h : r.toRatFunc = s.toRatFunc) :
    r.numerator.toPoly = s.numerator.toPoly ∧ r.denominator.toPoly = s.denominator.toPoly :=
  hr.toPoly_eq hs.coprime hs.monic h

/-- The leading coefficient that `simplify` divides by. -/
def cancelledLead (r : RationalFunction) : ℚ :=
  (r.denominator / r.commonFactor).leadingCoefficient

lemma cancelledLead_ne_zero (r : RationalFunction) : r.cancelledLead ≠ 0 :=
  Polynomial.leadingCoefficient_ne_zero r.isZero_reducedDenominator

/-- A quotient by a constant, multiplied by the constant again. -/
lemma C_mul_toPoly_scale (p : Polynomial) {c : ℚ} (hc : c ≠ 0) :
    C c * (p.scale (1 / c)).toPoly = p.toPoly := by
  rw [Polynomial.toPoly_scale, ← mul_assoc, ← C_mul, mul_one_div_cancel hc, C_1, one_mul]

lemma toPoly_simplify_numerator (r : RationalFunction) :
    C r.cancelledLead * r.simplify.numerator.toPoly
      = (r.numerator / r.commonFactor).toPoly :=
  C_mul_toPoly_scale _ r.cancelledLead_ne_zero

lemma toPoly_simplify_denominator (r : RationalFunction) :
    C r.cancelledLead * r.simplify.denominator.toPoly
      = (r.denominator / r.commonFactor).toPoly :=
  C_mul_toPoly_scale _ r.cancelledLead_ne_zero

lemma monic_simplify (r : RationalFunction) : r.simplify.denominator.toPoly.Monic := by
  have h : r.cancelledLead * r.simplify.denominator.toPoly.leadingCoeff = r.cancelledLead := by
    have hlead := congrArg leadingCoeff r.toPoly_simplify_denominator
    rwa [leadingCoeff_mul, leadingCoeff_C, ← Polynomial.leadingCoefficient_eq
      (r.denominator / r.commonFactor)] at hlead
  exact mul_left_cancel₀ r.cancelledLead_ne_zero (by rw [h, mul_one])

/-- Numerator and denominator are those of the canonical form times the greatest common
divisor, up to a constant. -/
lemma exists_eq_mul_simplify (r : RationalFunction) :
    ∃ k, Associated k r.commonFactor.toPoly
      ∧ r.numerator.toPoly = k * r.simplify.numerator.toPoly
      ∧ r.denominator.toPoly = k * r.simplify.denominator.toPoly := by
  have hunit : IsUnit (C r.cancelledLead) := isUnit_C.mpr r.cancelledLead_ne_zero.isUnit
  refine ⟨C r.cancelledLead * r.commonFactor.toPoly,
    associated_unit_mul_left _ _ hunit, ?_, ?_⟩
  · calc r.numerator.toPoly
        = (r.numerator / r.commonFactor).toPoly * r.commonFactor.toPoly :=
          (Polynomial.toPoly_div_mul_cancel r.isZero_commonFactor
            (Polynomial.gcd_dvd_left _ _)).symm
      _ = _ := by rw [← toPoly_simplify_numerator]; ring
  · calc r.denominator.toPoly
        = (r.denominator / r.commonFactor).toPoly * r.commonFactor.toPoly :=
          (Polynomial.toPoly_div_mul_cancel r.isZero_commonFactor
            (Polynomial.gcd_dvd_right _ _)).symm
      _ = _ := by rw [← toPoly_simplify_denominator]; ring

/-- The canonical form is reduced: coprime, with a monic denominator. -/
lemma isReduced_simplify (r : RationalFunction) : r.simplify.IsReduced := by
  obtain ⟨k, hk, hnum, hden⟩ := r.exists_eq_mul_simplify
  have hk0 : k ≠ 0 := fun h => r.toPoly_denominator_ne_zero (by rw [hden, h, zero_mul])
  refine ⟨isRelPrime_iff_isCoprime.mp fun d hdnum hdden => ?_, r.monic_simplify⟩
  -- times the common factor, a common divisor still divides the greatest one
  have hdvd : k * d ∣ r.commonFactor.toPoly := by
    rw [commonFactor, Polynomial.dvd_gcd_iff, hnum, hden]
    exact ⟨mul_dvd_mul_left k hdnum, mul_dvd_mul_left k hdden⟩
  have hdvd' : k * d ∣ k * 1 := by rw [mul_one]; exact hdvd.trans hk.symm.dvd
  exact isUnit_of_dvd_one ((mul_dvd_mul_iff_left hk0).mp hdvd')

/-- Numerator and denominator are coprime polynomials times one factor. -/
lemma exists_eq_mul_isCoprime (r : RationalFunction) :
    ∃ k : ℚ[X], k ≠ 0
      ∧ IsCoprime r.simplify.numerator.toPoly r.simplify.denominator.toPoly
      ∧ r.numerator.toPoly = k * r.simplify.numerator.toPoly
      ∧ r.denominator.toPoly = k * r.simplify.denominator.toPoly := by
  obtain ⟨k, -, hnum, hden⟩ := r.exists_eq_mul_simplify
  exact ⟨k, left_ne_zero_of_mul (hden ▸ r.toPoly_denominator_ne_zero),
    r.isReduced_simplify.coprime, hnum, hden⟩

@[simp] lemma toRatFunc_simplify (r : RationalFunction) : r.simplify.toRatFunc = r.toRatFunc := by
  obtain ⟨k, _, hnum, hden⟩ := r.exists_eq_mul_simplify
  rw [toRatFunc_eq_iff, hnum, hden]
  ring

/-- The reduced denominator is a divisor of the denominator. -/
lemma simplify_denominator_dvd (r : RationalFunction) :
    r.simplify.denominator.toPoly ∣ r.denominator.toPoly := by
  obtain ⟨k, _, _, hden⟩ := r.exists_eq_mul_simplify
  exact ⟨k, by rw [hden, mul_comm]⟩

/-- The quotient of numerator and denominator is the polynomial part of the canonical
form. -/
lemma toPoly_div_eq {q t : ℚ[X]}
    (h : r.simplify.numerator.toPoly = q * r.simplify.denominator.toPoly + t)
    (ht : t.degree < r.simplify.denominator.toPoly.degree) :
    (r.numerator / r.denominator).toPoly = q := by
  obtain ⟨k, hk0, -, hnum, hden⟩ := r.exists_eq_mul_isCoprime
  have hdeg : (k * t).degree < r.denominator.toPoly.degree := by
    rw [hden, mul_comm k, mul_comm k]
    exact (degree_mul_lt_mul_iff hk0).mpr ht
  refine (Polynomial.divMod_unique (d := r.denominator.toPoly) ?_
    (Polynomial.degree_toPoly_mod_lt r.numerator r.denominator_ne_zero) hdeg).1
  rw [Polynomial.toPoly_div_add_mod r.numerator r.denominator_ne_zero, hnum, hden, h]
  ring

/-! ### Values -/

/-- The value at a point that is no pole, and no value at a pole. -/
lemma eval?_eq_ok_iff {x v : ℚ} :
    r.eval? x = .ok v ↔
      r.denominator.toPoly.eval x ≠ 0
        ∧ v * r.denominator.toPoly.eval x = r.numerator.toPoly.eval x := by
  rw [eval?, ← Polynomial.eval_eq, ← Polynomial.eval_eq]
  split
  · next h => simp [h]
  · next h => rw [Except.ok.injEq, div_eq_iff h, eq_comm]; exact ⟨fun hv => ⟨h, hv⟩, And.right⟩

/-- A point that is no pole has a value. -/
lemma exists_eval?_eq_ok {x : ℚ} (hx : r.denominator.toPoly.eval x ≠ 0) :
    ∃ v, r.eval? x = .ok v :=
  ⟨_, eval?_eq_ok_iff.mpr ⟨hx, div_mul_cancel₀ _ hx⟩⟩

/-- Equal quotients of polynomials have equal values. -/
lemma eval?_eq_of_toPoly_eq {x v : ℚ} (hnum : r.numerator.toPoly = s.numerator.toPoly)
    (hden : r.denominator.toPoly = s.denominator.toPoly) (h : r.eval? x = .ok v) :
    s.eval? x = .ok v := by
  rw [eval?_eq_ok_iff] at h ⊢
  rwa [← hnum, ← hden]

/-- Cancelling keeps the values. -/
lemma eval?_simplify {x v : ℚ} (h : r.eval? x = .ok v) : r.simplify.eval? x = .ok v := by
  obtain ⟨k, _, hnum, hden⟩ := r.exists_eq_mul_simplify
  rw [eval?_eq_ok_iff, hnum, hden, eval_mul, eval_mul] at h
  obtain ⟨hx, hv⟩ := h
  refine eval?_eq_ok_iff.mpr ⟨right_ne_zero_of_mul hx, ?_⟩
  exact mul_left_cancel₀ (left_ne_zero_of_mul hx) (by linear_combination hv)

/-- Where both summands have a value, so has the sum. -/
lemma eval?_add {x u v : ℚ} (hr : r.eval? x = .ok u) (hs : s.eval? x = .ok v) :
    (r + s).eval? x = .ok (u + v) := by
  rw [eval?_eq_ok_iff] at hr hs ⊢
  simp only [toPoly_add, eval_add, eval_mul]
  refine ⟨mul_ne_zero hr.1 hs.1, ?_⟩
  rw [← hr.2, ← hs.2]
  ring

@[simp] lemma eval?_ofPolynomial (p : Polynomial) (x : ℚ) :
    (ofPolynomial p).eval? x = .ok (p.eval x) := by
  rw [eval?_eq_ok_iff, Polynomial.eval_eq]
  simp [ofPolynomial]

end RationalFunction

end ExactAlgebra
