import Mathlib.RingTheory.Polynomial.GaussLemma
import ExactAlgebra.Proofs.Polynomial.Primitive

/-!
The primitive part is the canonical integer multiple of a polynomial.

* **The form.** `IsPrimitiveForm` asks for integer coefficients without a common divisor and for
  a positive leading coefficient. Such polynomials are the primitive ones of `ℤ[X]` with a
  positive leading coefficient (`isPrimitiveForm_iff`).
* **Gauss's lemma.** They are closed under products (`IsPrimitiveForm.mul`), and two of them that
  differ by a rational factor only are equal (`IsPrimitiveForm.toPoly_eq`).
* **The primitive part.** It has this form (`isPrimitiveForm_primitive`): a common divisor of its
  coefficients, times the content, is a common divisor of the cleared coefficients.

Main statement: `primitive_canonical`.
-/

open Polynomial

namespace ExactAlgebra.Polynomial

variable {p q : Polynomial} {f : ℤ[X]}

/-! ### The form -/

/-- Integer coefficients without a common divisor (`Integer.dvd_gcdAll_iff`), and a positive
leading coefficient. -/
structure IsPrimitiveForm (p : Polynomial) : Prop where
  integral : p.isIntegral = true
  content_eq_one : Integer.gcdAll (p.coefficients.map Rat.num) = 1
  leading_pos : 0 < p.leadingCoefficient

/-- What holds of zero holds of all listed coefficients when it holds of all coefficients. -/
lemma forall_mem_coefficients_iff {P : ℚ → Prop} (h0 : P 0) :
    (∀ c ∈ p.coefficients, P c) ↔ ∀ n, P (p.coefficient n) := by
  constructor
  · intro h n
    rw [coefficient, List.getD_eq_getElem?_getD]
    cases hn : p.ascending[n]? with
    | none => exact h0
    | some c =>
        have hc : c ∈ p.ascending := List.mem_of_getElem? hn
        refine h c ?_
        rwa [coefficients, if_neg (by simpa using List.ne_nil_of_mem hc)]
  · intro h c hc
    obtain ⟨n, hn⟩ := List.mem_iff_getElem?.mp hc
    have hn' := h n
    rwa [coefficient_eq, ← toPoly_ofList_coefficients, Coefficients.coeff_toPoly,
      List.getD_eq_getElem?_getD, hn, Option.getD_some] at hn'

/-- The numerators of the coefficients are the coefficients over `ℤ`. -/
lemma num_coefficient (hf : f.map (Int.castRingHom ℚ) = p.toPoly) (n : ℕ) :
    (p.coefficient n).num = f.coeff n := by
  rw [coefficient_eq, ← hf, coeff_map, eq_intCast, Rat.num_intCast]

/-- A number divides the content when it divides the polynomial over `ℤ`. -/
lemma dvd_content_iff (hf : f.map (Int.castRingHom ℚ) = p.toPoly) {d : ℕ} :
    d ∣ Integer.gcdAll (p.coefficients.map Rat.num) ↔ C (d : ℤ) ∣ f := by
  rw [Integer.dvd_gcdAll_iff, List.forall_mem_map,
    forall_mem_coefficients_iff (P := fun c => (d : ℤ) ∣ c.num) (dvd_zero _), C_dvd_iff_dvd_coeff]
  simp only [num_coefficient hf]

lemma content_eq_one_iff (hf : f.map (Int.castRingHom ℚ) = p.toPoly) :
    Integer.gcdAll (p.coefficients.map Rat.num) = 1 ↔ f.IsPrimitive := by
  constructor
  · intro h r hr
    rw [C_dvd_iff_dvd_coeff] at hr
    have hdvd : C (r.natAbs : ℤ) ∣ f :=
      (C_dvd_iff_dvd_coeff _ _).mpr fun n => Int.natAbs_dvd.mpr (hr n)
    rw [← dvd_content_iff hf, h, Nat.dvd_one] at hdvd
    exact Int.isUnit_iff_natAbs_eq.mpr hdvd
  · intro h
    exact Nat.isUnit_iff.mp (Int.ofNat_isUnit.mp (h _ ((dvd_content_iff hf).mp dvd_rfl)))

lemma leadingCoefficient_eq_cast (hf : f.map (Int.castRingHom ℚ) = p.toPoly) :
    p.leadingCoefficient = f.leadingCoeff := by
  rw [leadingCoefficient_eq, ← hf, leadingCoeff_map_of_injective Int.cast_injective, eq_intCast]

/-- The form is that of the primitive polynomials over `ℤ` with a positive leading
coefficient. -/
lemma isPrimitiveForm_iff :
    p.IsPrimitiveForm ↔
      ∃ f : ℤ[X], f.IsPrimitive ∧ 0 < f.leadingCoeff ∧ f.map (Int.castRingHom ℚ) = p.toPoly := by
  constructor
  · rintro ⟨hint, hcontent, hlead⟩
    obtain ⟨f, hf⟩ := (mem_lifts _).mp (isIntegral_iff_lifts.mp hint)
    rw [leadingCoefficient_eq_cast hf] at hlead
    exact ⟨f, (content_eq_one_iff hf).mp hcontent, by exact_mod_cast hlead, hf⟩
  · rintro ⟨f, hprim, hlead, hf⟩
    refine ⟨isIntegral_iff_lifts.mpr ((mem_lifts _).mpr ⟨f, hf⟩),
      (content_eq_one_iff hf).mpr hprim, ?_⟩
    rw [leadingCoefficient_eq_cast hf]
    exact_mod_cast hlead

/-! ### Gauss's lemma -/

/-- The product of primitive polynomials is primitive. -/
lemma IsPrimitiveForm.mul (hp : p.IsPrimitiveForm) (hq : q.IsPrimitiveForm) :
    (p * q).IsPrimitiveForm := by
  obtain ⟨f, hf, hflead, hfp⟩ := isPrimitiveForm_iff.mp hp
  obtain ⟨g, hg, hglead, hgq⟩ := isPrimitiveForm_iff.mp hq
  refine isPrimitiveForm_iff.mpr ⟨f * g, hf.mul hg, ?_, ?_⟩
  · rw [leadingCoeff_mul]
    exact mul_pos hflead hglead
  · rw [Polynomial.map_mul, hfp, hgq, toPoly_mul]

/-- Associated polynomials over `ℤ` with positive leading coefficients are equal: the unit
between them is `1`. -/
lemma eq_of_associated_of_leadingCoeff_pos {f g : ℤ[X]} (h : Associated f g)
    (hf : 0 < f.leadingCoeff) (hg : 0 < g.leadingCoeff) : f = g := by
  obtain ⟨u, hu⟩ := h
  obtain ⟨n, hn, hun⟩ := Polynomial.isUnit_iff.mp u.isUnit
  rw [← hun] at hu
  rcases Int.isUnit_iff.mp hn with rfl | rfl
  · rw [← hu, C_1, mul_one]
  · rw [← hu, leadingCoeff_mul, leadingCoeff_C] at hg
    omega

/-- Two polynomials of this form that differ by a rational factor are equal. -/
lemma IsPrimitiveForm.toPoly_eq (hp : p.IsPrimitiveForm) (hq : q.IsPrimitiveForm) {k : ℚ}
    (hk : k ≠ 0) (h : p.toPoly = C k * q.toPoly) : p.toPoly = q.toPoly := by
  obtain ⟨f, hf, hflead, hfp⟩ := isPrimitiveForm_iff.mp hp
  obtain ⟨g, hg, hglead, hgq⟩ := isPrimitiveForm_iff.mp hq
  have hunit : IsUnit (C k) := isUnit_C.mpr hk.isUnit
  rw [← hfp, ← hgq] at h ⊢
  -- over `ℚ` each divides the other, and so over `ℤ`
  have hfg : f ∣ g := (IsPrimitive.Int.dvd_iff_map_cast_dvd_map_cast f g hf).mpr
    (by rw [h]; exact hunit.mul_left_dvd.mpr dvd_rfl)
  have hgf : g ∣ f := (IsPrimitive.Int.dvd_iff_map_cast_dvd_map_cast g f hg).mpr
    (by rw [h]; exact dvd_mul_left _ _)
  rw [eq_of_associated_of_leadingCoeff_pos (associated_of_dvd_dvd hfg hgf) hflead hglead]

/-! ### The primitive part -/

/-- The coefficients of the primitive part are the cleared ones divided by the content. -/
lemma coefficient_primitive (hp : p.isZero = false) (n : ℕ) :
    p.primitive.coefficient n = ((p.clearedCoefficients.getD n 0 / p.signedContent : ℤ) : ℚ) := by
  rw [primitive_eq hp, coefficient_eq, toPoly_ofList, Coefficients.coeff_toPoly,
    List.getD_eq_getElem?_getD, List.getD_eq_getElem?_getD, List.getElem?_map]
  cases p.clearedCoefficients[n]? <;> simp

/-- Nothing but `1` divides all coefficients of the primitive part. -/
lemma content_primitive (hp : p.isZero = false) :
    Integer.gcdAll (p.primitive.coefficients.map Rat.num) = 1 := by
  set d := Integer.gcdAll (p.primitive.coefficients.map Rat.num) with hd
  have hquot : ∀ n, (d : ℤ) ∣ p.clearedCoefficients.getD n 0 / p.signedContent := by
    have hdvd : ∀ c ∈ p.primitive.coefficients, (d : ℤ) ∣ c.num := fun c hc =>
      Integer.gcdAll_dvd (List.mem_map_of_mem hc)
    rw [forall_mem_coefficients_iff (P := fun c => (d : ℤ) ∣ c.num) (dvd_zero _)] at hdvd
    exact fun n => by simpa [coefficient_primitive hp] using hdvd n
  -- times the content, it divides the content
  have hmul : (p.signedContent * d).natAbs ∣ p.signedContent.natAbs := by
    rw [natAbs_signedContent, Integer.dvd_gcdAll_iff]
    intro n hn
    obtain ⟨i, hi⟩ := List.mem_iff_getElem?.mp hn
    have hi' := hquot i
    rw [List.getD_eq_getElem?_getD, hi, Option.getD_some] at hi'
    rw [Int.natAbs_dvd, ← Int.mul_ediv_cancel' (signedContent_dvd hn)]
    exact mul_dvd_mul_left _ hi'
  have hpos : 0 < p.signedContent.natAbs := Int.natAbs_pos.mpr (signedContent_ne_zero hp)
  rw [Int.natAbs_mul, Int.natAbs_natCast] at hmul
  exact Nat.dvd_one.mp (Nat.dvd_of_mul_dvd_mul_left hpos (by rwa [mul_one]))

/-- The content has the sign of the leading coefficient. -/
lemma leadingCoefficient_primitive_pos (hp : p.isZero = false) :
    0 < p.primitive.leadingCoefficient := by
  have hcast := cast_getLastD_cleared hp
  have hgcd : (0 : ℚ) < Integer.gcdAll p.clearedCoefficients := by
    exact_mod_cast Nat.pos_of_ne_zero (gcdAll_cleared_ne_zero hp)
  have hlead : p.primitive.leadingCoefficient
      = (p.clearedCoefficients.getLastD 0 : ℤ) / p.signedContent := by
    rw [leadingCoefficient_eq, toPoly_primitive_eq hp, leadingCoeff_mul, leadingCoeff_C, hcast,
      primitiveFactor, ← leadingCoefficient_eq]
    ring
  rw [hlead, signedContent]
  split
  · next hneg =>
      rw [Int.cast_neg, Int.cast_natCast]
      exact div_pos_of_neg_of_neg (by exact_mod_cast hneg) (neg_lt_zero.mpr hgcd)
  · next hneg =>
      have hpos : 0 < p.clearedCoefficients.getLastD 0 :=
        lt_of_le_of_ne (not_lt.mp hneg) (getLastD_cleared_ne_zero hp).symm
      exact div_pos (by exact_mod_cast hpos) (by exact_mod_cast hgcd)

/-- The primitive part of a nonzero polynomial is in primitive form. -/
lemma isPrimitiveForm_primitive (hp : p.isZero = false) : p.primitive.IsPrimitiveForm :=
  ⟨isIntegral_primitive hp, content_primitive hp, leadingCoefficient_primitive_pos hp⟩

/-- A multiple of a polynomial that has the form is its primitive part. -/
lemma IsPrimitiveForm.toPoly_eq_primitive (hq : q.IsPrimitiveForm) (hp : p.isZero = false) {k : ℚ}
    (hk : k ≠ 0) (h : q.toPoly = C k * p.toPoly) : q.toPoly = p.primitive.toPoly := by
  have hfactor := primitiveFactor_ne_zero hp
  refine hq.toPoly_eq (isPrimitiveForm_primitive hp) (div_ne_zero hk hfactor) ?_
  rw [h, toPoly_primitive_eq hp, ← mul_assoc, ← C_mul, div_mul_cancel₀ _ hfactor]

lemma toPoly_primitive_of_isZero (hp : p.isZero = true) : p.primitive.toPoly = 0 := by
  rw [primitive, if_pos hp, toPoly_eq_zero_iff, hp]

/-- A rational factor does not change the primitive part. -/
lemma toPoly_primitive_scale (p : Polynomial) {c : ℚ} (hc : c ≠ 0) :
    (p.scale c).primitive.toPoly = p.primitive.toPoly := by
  cases hp : p.isZero with
  | true =>
      have hscale : (p.scale c).isZero = true := by
        rw [← toPoly_eq_zero_iff, toPoly_scale, toPoly_eq_zero_iff.mpr hp, mul_zero]
      rw [toPoly_primitive_of_isZero hp, toPoly_primitive_of_isZero hscale]
  | false =>
      have hscale := isZero_scale hp hc
      refine (isPrimitiveForm_primitive hscale).toPoly_eq_primitive hp
        (mul_ne_zero (primitiveFactor_ne_zero hscale) hc) ?_
      rw [toPoly_primitive_eq hscale, toPoly_scale, C_mul, mul_assoc]

/-- The primitive part of a product is the product of the primitive parts. -/
lemma toPoly_primitive_mul (p q : Polynomial) :
    (p * q).primitive.toPoly = p.primitive.toPoly * q.primitive.toPoly := by
  by_cases h : p.isZero = true ∨ q.isZero = true
  · have hmul : (p * q).isZero = true := by
      simpa only [← toPoly_eq_zero_iff, toPoly_mul, mul_eq_zero] using h
    rw [toPoly_primitive_of_isZero hmul, eq_comm, mul_eq_zero]
    exact h.imp toPoly_primitive_of_isZero toPoly_primitive_of_isZero
  · rw [not_or, Bool.not_eq_true, Bool.not_eq_true] at h
    obtain ⟨hp, hq⟩ := h
    rw [← toPoly_mul, eq_comm]
    refine ((isPrimitiveForm_primitive hp).mul
      (isPrimitiveForm_primitive hq)).toPoly_eq_primitive (isZero_mul hp hq)
      (mul_ne_zero (primitiveFactor_ne_zero hp) (primitiveFactor_ne_zero hq)) ?_
    rw [toPoly_mul, toPoly_mul, toPoly_primitive_eq hp, toPoly_primitive_eq hq, C_mul]
    ring

/-- **The primitive part is the canonical integer multiple.** For a polynomial that is not zero
it has integer coefficients without a common divisor and a positive leading coefficient, and it
is a nonzero multiple of the polynomial; it is the only such multiple. Rational factors do not
change it, so that it is its own primitive part, and the primitive part of a product is the
product of the primitive parts. -/
theorem primitive_canonical :
    (∀ p : Polynomial, p.isZero = false →
      p.primitive.IsPrimitiveForm ∧ ∃ k : ℚ, k ≠ 0 ∧ (p.primitive == p.scale k) = true)
    ∧ (∀ (p q : Polynomial) (k : ℚ), p.isZero = false → k ≠ 0 → q.IsPrimitiveForm →
      (q == p.scale k) = true → (q == p.primitive) = true)
    ∧ (∀ (p : Polynomial) (c : ℚ), c ≠ 0 → ((p.scale c).primitive == p.primitive) = true)
    ∧ (∀ p : Polynomial, (p.primitive.primitive == p.primitive) = true)
    ∧ ∀ p q : Polynomial, ((p * q).primitive == p.primitive * q.primitive) = true := by
  simp only [beq_iff_toPoly, toPoly_scale, toPoly_mul]
  refine ⟨fun p hp => ⟨isPrimitiveForm_primitive hp, toPoly_primitive hp⟩,
    fun p q k hp hk hq h => hq.toPoly_eq_primitive hp hk h,
    fun p c hc => toPoly_primitive_scale p hc, fun p => ?_, toPoly_primitive_mul⟩
  cases hp : p.primitive.isZero with
  | true => rw [toPoly_primitive_of_isZero hp, toPoly_eq_zero_iff.mpr hp]
  | false =>
      have hp' : p.isZero = false := by
        by_contra h
        rw [Bool.not_eq_false] at h
        exact toPoly_ne_zero_iff.mpr hp (toPoly_primitive_of_isZero h)
      exact ((isPrimitiveForm_primitive hp').toPoly_eq_primitive hp one_ne_zero
        (by rw [C_1, one_mul])).symm

/-- Fractions under a negative leading coefficient: the content carries the sign. -/
theorem primitive_canonical_negative :
    let p : Polynomial := ofList [9/4, 0, -3/2] (some "t")
    let q : Polynomial := ofList [-3, 0, 2] none
    let r : Polynomial := ofList [2/3, 4] none
    p.isZero = false ∧ (-4/3 : ℚ) ≠ 0 ∧ (-5/7 : ℚ) ≠ 0 ∧ q.IsPrimitiveForm
      ∧ (q == p.scale (-4/3)) = true
      ∧ (p.primitive.IsPrimitiveForm ∧ ∃ k : ℚ, k ≠ 0 ∧ (p.primitive == p.scale k) = true)
      ∧ (q == p.primitive) = true
      ∧ ((p.scale (-5/7)).primitive == p.primitive) = true
      ∧ ((p * r).primitive == p.primitive * r.primitive) = true := by
  intro p q r
  have hp : p.isZero = false := by decide +kernel
  have hk : (-4/3 : ℚ) ≠ 0 := by norm_num
  have hc : (-5/7 : ℚ) ≠ 0 := by norm_num
  have hq : q.IsPrimitiveForm := ⟨by decide +kernel, by decide +kernel, by decide +kernel⟩
  have hqp : (q == p.scale (-4/3)) = true := by decide +kernel
  obtain ⟨hform, hunique, hscale, _, hmul⟩ := primitive_canonical
  exact ⟨hp, hk, hc, hq, hqp, hform p hp, hunique p q (-4/3) hp hk hq hqp, hscale p (-5/7) hc,
    hmul p r⟩

end ExactAlgebra.Polynomial
