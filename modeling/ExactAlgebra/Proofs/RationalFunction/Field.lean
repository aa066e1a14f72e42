import ExactAlgebra.Proofs.Outcome
import ExactAlgebra.Proofs.RationalFunction.Reduced

/-!
Rational functions form a field, up to equality of cross products.

* **Denotations.** Every operation on quotients is the operation of `ℚ(X)`: `toRatFunc_sub`,
  `toRatFunc_mul`, `toRatFunc_neg`, `toRatFunc_pow`, and for a divisor that is not zero
  `div?_eq_ok` and `reciprocal?_eq_ok`.
* **Refusals.** Division and reciprocal are refused for the divisor zero alone
  (`div?_eq_error_iff`, `reciprocal?_eq_error_iff`), an integer power for a negative exponent
  of zero alone (`pow?_eq_error_iff`). No result has the denominator zero: the constructor
  accepts numerator and denominator of each (`ofPolynomials?_eq_ok`).

Main statement: `field_laws`.
-/

open Polynomial

namespace ExactAlgebra.RationalFunction

variable {r s : RationalFunction}

/-! ### Denotations -/

@[simp] lemma toRatFunc_neg (r : RationalFunction) : (-r).toRatFunc = -r.toRatFunc := by
  change algebraMap _ _ (-r.numerator).toPoly / algebraMap _ _ r.denominator.toPoly = _
  rw [Polynomial.toPoly_neg, map_neg, neg_div, toRatFunc]

/-- Difference, product and power are those of `ℚ(X)`, as are sum and negative. -/
@[simp] lemma toRatFunc_sub (r s : RationalFunction) :
    (r - s).toRatFunc = r.toRatFunc - s.toRatFunc := by
  rw [toRatFunc, toRatFunc, toRatFunc, (toPoly_sub r s).1, (toPoly_sub r s).2,
    div_sub_div _ _ (RatFunc.algebraMap_ne_zero r.toPoly_denominator_ne_zero)
      (RatFunc.algebraMap_ne_zero s.toPoly_denominator_ne_zero)]
  simp only [map_sub, map_mul]
  ring

@[simp] lemma toRatFunc_mul (r s : RationalFunction) :
    (r * s).toRatFunc = r.toRatFunc * s.toRatFunc := by
  rw [toRatFunc, toRatFunc, toRatFunc, (toPoly_mul r s).1, (toPoly_mul r s).2, map_mul, map_mul,
    div_mul_div_comm]

@[simp] lemma toRatFunc_pow (r : RationalFunction) (n : ℕ) :
    (r ^ n).toRatFunc = r.toRatFunc ^ n := by
  change algebraMap _ _ (r.numerator ^ n).toPoly / algebraMap _ _ (r.denominator ^ n).toPoly = _
  rw [Polynomial.toPoly_pow, Polynomial.toPoly_pow, map_pow, map_pow, toRatFunc, div_pow]

/-- A constant function is a constant of the field. -/
@[simp] lemma toRatFunc_const (c : ℚ) :
    (const c).toRatFunc = algebraMap ℚ[X] (RatFunc ℚ) (C c) := by
  rw [const, toRatFunc_ofPolynomial, Polynomial.toPoly_const]

/-- A function is zero in the field when its numerator is. -/
lemma toRatFunc_eq_zero_iff : r.toRatFunc = 0 ↔ r.isZero = true := by
  rw [toRatFunc, div_eq_zero_iff,
    or_iff_left (RatFunc.algebraMap_ne_zero r.toPoly_denominator_ne_zero),
    map_eq_zero_iff _ (RatFunc.algebraMap_injective ℚ), Polynomial.toPoly_eq_zero_iff, isZero]

lemma toRatFunc_ne_zero_iff : r.toRatFunc ≠ 0 ↔ r.isZero = false := by
  rw [Ne, toRatFunc_eq_zero_iff, Bool.not_eq_true]

/-- Being zero does not depend on the quotient that is written. -/
lemma isZero_congr (h : (r == s) = true) : r.isZero = s.isZero := by
  rw [Bool.eq_iff_iff, ← toRatFunc_eq_zero_iff, ← toRatFunc_eq_zero_iff, beq_iff_toRatFunc.mp h]

/-- Zero is the function that is equal to the number zero. -/
lemma isZero_iff_beq_const : r.isZero = true ↔ (r == const 0) = true := by
  rw [beq_iff_toRatFunc, toRatFunc_const, C_0, map_zero, toRatFunc_eq_zero_iff]

/-! ### Division -/

/-- A division by a function that is not zero returns the quotient of the field. -/
lemma div?_eq_ok (r : RationalFunction) (hs : s.isZero = false) :
    ∃ q, r.div? s = .ok q ∧ q.toRatFunc = r.toRatFunc / s.toRatFunc := by
  refine ⟨_, dif_pos hs, ?_⟩
  rw [toRatFunc, toRatFunc, toRatFunc, div_div_div_eq]
  simp only [Polynomial.toPoly_mul, map_mul]

/-- The reciprocal of a function that is not zero is its inverse in the field. -/
lemma reciprocal?_eq_ok (hr : r.isZero = false) :
    ∃ q, r.reciprocal? = .ok q ∧ q.toRatFunc = (r.toRatFunc)⁻¹ :=
  ⟨_, dif_pos hr, by rw [toRatFunc, toRatFunc, inv_div]⟩

/-- A division is refused exactly when the divisor is zero, with an error of its own. -/
lemma div?_eq_error_iff {e : Error} :
    r.div? s = .error e ↔ s.isZero = true ∧ e = .zeroFunctionDivisor := by
  cases hs : s.isZero with
  | true =>
      have hnum : ¬s.numerator.isZero = false := Bool.not_eq_false _ ▸ hs
      rw [div?, dif_neg hnum, Except.error.injEq, eq_comm, eq_self, true_and]
  | false =>
      obtain ⟨q, hq, -⟩ := div?_eq_ok r hs
      simp [hq]

/-- A reciprocal is refused exactly for zero. -/
lemma reciprocal?_eq_error_iff {e : Error} :
    r.reciprocal? = .error e ↔ r.isZero = true ∧ e = .zeroReciprocal := by
  cases hr : r.isZero with
  | true =>
      have hnum : ¬r.numerator.isZero = false := Bool.not_eq_false _ ▸ hr
      rw [reciprocal?, dif_neg hnum, Except.error.injEq, eq_comm, eq_self, true_and]
  | false =>
      obtain ⟨q, hq, -⟩ := reciprocal?_eq_ok hr
      simp [hq]

/-- A power is refused when it is a power of the reciprocal of zero. -/
lemma pow?_eq_error_iff {n : ℤ} {e : Error} :
    r.pow? n = .error e ↔ n < 0 ∧ r.isZero = true ∧ e = .zeroReciprocal := by
  rw [pow?]
  split
  · next hn =>
      rw [bind_eq_error_iff, reciprocal?_eq_error_iff]
      simp [hn]
  · next hn => simp [hn]

/-! ### Denominators -/

/-- The constructor accepts numerator and denominator of a rational function. -/
lemma ofPolynomials?_eq_ok (r : RationalFunction) :
    ofPolynomials? r.numerator r.denominator = .ok r :=
  dif_pos r.denominator_ne_zero

/-- Quotients pass the check of denominators that the constructor makes. -/
lemma ofPolynomials?_eq_div? (r : RationalFunction) (hs : s.isZero = false) :
    ofPolynomials? (r.numerator * s.denominator) (r.denominator * s.numerator) = r.div? s := by
  have hnum : s.numerator.isZero = false := hs
  rw [ofPolynomials?, dif_pos (Polynomial.isZero_mul r.denominator_ne_zero hs), div?, dif_pos hnum]

lemma ofPolynomials?_eq_reciprocal? (hs : s.isZero = false) :
    ofPolynomials? s.denominator s.numerator = s.reciprocal? := by
  have hnum : s.numerator.isZero = false := hs
  rw [ofPolynomials?, dif_pos hnum, reciprocal?, dif_pos hnum]

/-! ### The field -/

/-- Operations on equal functions have equal results. -/
lemma operations_congr {r' s' : RationalFunction} (hr : (r == r') = true)
    (hs : (s == s') = true) :
    (r + s == r' + s') = true ∧ (r - s == r' - s') = true ∧ (r * s == r' * s') = true
      ∧ (-r == -r') = true := by
  simp only [beq_iff_toRatFunc] at hr hs ⊢
  simp only [toRatFunc_add, toRatFunc_sub, toRatFunc_mul, toRatFunc_neg, hr, hs, and_self]

/-- Equal functions have equal quotients. -/
lemma div?_congr {r' s' : RationalFunction} (hr : (r == r') = true) (hs : (s == s') = true)
    (hzero : s.isZero = false) :
    ∃ q q', r.div? s = .ok q ∧ r'.div? s' = .ok q' ∧ (q == q') = true := by
  obtain ⟨q, hq, hval⟩ := div?_eq_ok r hzero
  obtain ⟨q', hq', hval'⟩ := div?_eq_ok r' (isZero_congr hs ▸ hzero)
  refine ⟨q, q', hq, hq', beq_iff_toRatFunc.mpr ?_⟩
  calc q.toRatFunc = r.toRatFunc / s.toRatFunc := hval
    _ = r'.toRatFunc / s'.toRatFunc := by
        rw [beq_iff_toRatFunc.mp hr, beq_iff_toRatFunc.mp hs]
    _ = q'.toRatFunc := hval'.symm

/-- Multiplication undoes division. -/
lemma div?_mul_cancel (r : RationalFunction) (hs : s.isZero = false) :
    ∃ q, r.div? s = .ok q ∧ (q * s == r) = true := by
  obtain ⟨q, hq, hval⟩ := div?_eq_ok r hs
  refine ⟨q, hq, beq_iff_toRatFunc.mpr ?_⟩
  calc (q * s).toRatFunc = r.toRatFunc / s.toRatFunc * s.toRatFunc := by rw [toRatFunc_mul, hval]
    _ = r.toRatFunc := div_mul_cancel₀ _ (toRatFunc_ne_zero_iff.mpr hs)

lemma mul_reciprocal?_cancel (hr : r.isZero = false) :
    ∃ q, r.reciprocal? = .ok q ∧ (r * q == const 1) = true := by
  obtain ⟨q, hq, hval⟩ := reciprocal?_eq_ok hr
  refine ⟨q, hq, beq_iff_toRatFunc.mpr ?_⟩
  calc (r * q).toRatFunc = r.toRatFunc * (r.toRatFunc)⁻¹ := by rw [toRatFunc_mul, hval]
    _ = 1 := mul_inv_cancel₀ (toRatFunc_ne_zero_iff.mpr hr)
    _ = (const 1).toRatFunc := by rw [toRatFunc_const, C_1, map_one]

/-- **Rational functions form a field up to equality of cross products.** The operations do
not depend on the quotients that are written. Sum and product are commutative and associative,
the product distributes over the sum, zero and one are neutral and different, and difference,
quotient and reciprocal undo sum and product. Quotient and reciprocal are refused, as a
division by zero, for the divisor zero alone; in every other case numerator and denominator of
a result pass the check of the constructor. -/
theorem field_laws :
    (∀ r r' s s' : RationalFunction, (r == r') = true → (s == s') = true →
      (r + s == r' + s') = true ∧ (r - s == r' - s') = true ∧ (r * s == r' * s') = true
      ∧ (-r == -r') = true
      ∧ (s.isZero = false →
          ∃ q q', r.div? s = .ok q ∧ r'.div? s' = .ok q' ∧ (q == q') = true))
    ∧ (∀ r s t : RationalFunction,
      (r + s == s + r) = true ∧ (r + s + t == r + (s + t)) = true
      ∧ (r * s == s * r) = true ∧ (r * s * t == r * (s * t)) = true
      ∧ (r * (s + t) == r * s + r * t) = true)
    ∧ (∀ r s : RationalFunction,
      (r + const 0 == r) = true ∧ (r * const 1 == r) = true
      ∧ (r + -r == const 0) = true ∧ (r - s + s == r) = true
      ∧ (s.isZero = false → ∃ q, r.div? s = .ok q ∧ (q * s == r) = true)
      ∧ (r.isZero = false → ∃ q, r.reciprocal? = .ok q ∧ (r * q == const 1) = true))
    ∧ (const 0 == const 1) = false
    ∧ (∀ (r s : RationalFunction) (n : ℤ),
      (s.isZero = true ↔ (s == const 0) = true)
      ∧ ((∃ e, r.div? s = .error e ∧ e.kind = .divisionByZero) ↔ s.isZero = true)
      ∧ ((∃ e, s.reciprocal? = .error e ∧ e.kind = .divisionByZero) ↔ s.isZero = true)
      ∧ ((∃ e, s.pow? n = .error e ∧ e.kind = .divisionByZero) ↔ s.isZero = true ∧ n < 0))
    ∧ ∀ (r s : RationalFunction) (n : ℕ),
      ofPolynomials? (r.numerator * s.denominator + s.numerator * r.denominator)
          (r.denominator * s.denominator) = .ok (r + s)
      ∧ ofPolynomials? (r.numerator * s.denominator - s.numerator * r.denominator)
          (r.denominator * s.denominator) = .ok (r - s)
      ∧ ofPolynomials? (r.numerator * s.numerator) (r.denominator * s.denominator) = .ok (r * s)
      ∧ ofPolynomials? (-r.numerator) r.denominator = .ok (-r)
      ∧ ofPolynomials? (r.numerator ^ n) (r.denominator ^ n) = .ok (r ^ n)
      ∧ (s.isZero = false →
          ofPolynomials? (r.numerator * s.denominator) (r.denominator * s.numerator) = r.div? s
          ∧ ofPolynomials? s.denominator s.numerator = s.reciprocal?) := by
  refine ⟨fun r r' s s' hr hs => ?_, fun r s t => ?_, fun r s => ?_, ?_, fun r s n => ?_,
    fun r s n => ?_⟩
  · obtain ⟨hadd, hsub, hmul, hneg⟩ := operations_congr hr hs
    exact ⟨hadd, hsub, hmul, hneg, div?_congr hr hs⟩
  · -- the laws of rings are those of `ℚ(X)`
    simp only [beq_iff_toRatFunc, toRatFunc_add, toRatFunc_mul]
    exact ⟨add_comm _ _, add_assoc _ _ _, mul_comm _ _, mul_assoc _ _ _, mul_add _ _ _⟩
  · refine ⟨?_, ?_, ?_, ?_, div?_mul_cancel r, mul_reciprocal?_cancel⟩ <;>
      simp [beq_iff_toRatFunc]
  · rw [← Bool.not_eq_true, beq_iff_toRatFunc]
    simp
  · refine ⟨isZero_iff_beq_const, ?_, ?_, ?_⟩
    · -- refusals are inverted by the errors that each operation has
      simp only [div?_eq_error_iff]
      exact ⟨fun ⟨_, h, _⟩ => h.1, fun h => ⟨_, ⟨h, rfl⟩, rfl⟩⟩
    · simp only [reciprocal?_eq_error_iff]
      exact ⟨fun ⟨_, h, _⟩ => h.1, fun h => ⟨_, ⟨h, rfl⟩, rfl⟩⟩
    · simp only [pow?_eq_error_iff]
      exact ⟨fun ⟨_, h, _⟩ => ⟨h.2.1, h.1⟩, fun h => ⟨_, ⟨h.2, h.1, rfl⟩, rfl⟩⟩
  · exact ⟨ofPolynomials?_eq_ok (r + s), ofPolynomials?_eq_ok (r - s),
      ofPolynomials?_eq_ok (r * s), ofPolynomials?_eq_ok (-r), ofPolynomials?_eq_ok (r ^ n),
      fun hs => ⟨ofPolynomials?_eq_div? r hs, ofPolynomials?_eq_reciprocal? hs⟩⟩

/-- The quotients `(x² - 1) / (x - 1)` and `2x / 2x²`, which are written unreduced, and the
quotients `x + 1` and `1 / x` that are equal to them. -/
theorem field_laws_unreduced :
    let r : RationalFunction := ⟨.ofList [-1, 0, 1] none, .ofList [-1, 1] none, by decide +kernel⟩
    let r' : RationalFunction := ⟨.ofList [1, 1] none, .one none, Polynomial.isZero_one none⟩
    let s : RationalFunction := ⟨.ofList [0, 2] none, .ofList [0, 0, 2] none, by decide +kernel⟩
    let s' : RationalFunction := ⟨.one none, .ofList [0, 1] none, by decide +kernel⟩
    (r == r') = true ∧ (s == s') = true ∧ s.isZero = false
      ∧ (r + s == r' + s') = true ∧ (r - s == r' - s') = true ∧ (r * s == r' * s') = true
      ∧ (∃ q q', r.div? s = .ok q ∧ r'.div? s' = .ok q' ∧ (q == q') = true)
      ∧ (∃ q, r.div? s = .ok q ∧ (q * s == r) = true)
      ∧ (∃ q, s.reciprocal? = .ok q ∧ (s * q == const 1) = true)
      ∧ ofPolynomials? s.denominator s.numerator = s.reciprocal?
      ∧ ∃ e, r.div? (s - s') = .error e ∧ e.kind = .divisionByZero := by
  intro r r' s s'
  have hr : (r == r') = true := by decide +kernel
  have hs : (s == s') = true := by decide +kernel
  have hzero : s.isZero = false := by decide +kernel
  have hdiff : (s - s').isZero = true := by decide +kernel
  obtain ⟨hcongr, -, hfield, -, hrefused, hdefined⟩ := field_laws
  obtain ⟨hadd, hsub, hmul, -, hdiv⟩ := hcongr r r' s s' hr hs
  obtain ⟨-, -, -, -, hcancel, -⟩ := hfield r s
  obtain ⟨-, -, -, -, -, hreciprocal⟩ := hfield s r
  exact ⟨hr, hs, hzero, hadd, hsub, hmul, hdiv hzero, hcancel hzero, hreciprocal hzero,
    ((hdefined r s 0).2.2.2.2.2 hzero).2, (hrefused r (s - s') 0).2.1.mpr hdiff⟩

end ExactAlgebra.RationalFunction
