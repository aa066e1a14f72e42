import ExactAlgebra.Proofs.Polynomial.Denotation

/-!
Long division, greatest common divisors and synthetic division, read in `ℚ[X]`.

* `toPoly_div`, `toPoly_mod`: quotient and remainder are those of the Euclidean domain
  `ℚ[X]`; they come from the division identity and the bound on the remainder, which
  determine the two (`divMod_unique`).
* `dvd_gcd_iff`: the divisors of the greatest common divisor are the common divisors. It is
  monic (`monic_gcd`).
* `toPoly_syntheticDivide`: synthetic division by `x - c`, exact when `c` is a root
  (`toPoly_eq_of_root`).
-/

open Polynomial

namespace ExactAlgebra.Polynomial

/-! ### Long division -/

/-- Division by a polynomial that is not zero returns. -/
lemma divMod?_eq_ok (p : Polynomial) {q : Polynomial} (hq : q.isZero = false) :
    p.divMod? q = .ok (p / q, p % q) :=
  if_neg (by simp [hq])

/-- The division identity. -/
lemma toPoly_div_add_mod (p : Polynomial) {q : Polynomial} (hq : q.isZero = false) :
    (p / q).toPoly * q.toPoly + (p % q).toPoly = p.toPoly := by
  change (ofList (Coefficients.divMod _ _).1 _).toPoly * _
    + (ofList (Coefficients.divMod _ _).2 _).toPoly = _
  rw [toPoly_ofList, toPoly_ofList, toPoly, toPoly,
    ← Coefficients.toPoly_divMod (isZero_eq_false_iff.mp hq) q.trimmed]

/-- The remainder has a smaller degree than the divisor. -/
lemma degree_toPoly_mod_lt (p : Polynomial) {q : Polynomial} (hq : q.isZero = false) :
    (p % q).toPoly.degree < q.toPoly.degree := by
  have hlen := length_mod_lt p hq
  rw [length_ascending hq] at hlen
  rw [degree_eq_natDegree (toPoly_ne_zero_iff.mpr hq)]
  refine lt_of_lt_of_le (Coefficients.degree_toPoly_lt _) ?_
  exact_mod_cast Nat.lt_succ_iff.mp hlen

/-- Quotient and remainder are determined by the division identity and the bound on the
remainder. -/
lemma divMod_unique {d q₁ q₂ r₁ r₂ : ℚ[X]} (h : q₁ * d + r₁ = q₂ * d + r₂)
    (h₁ : r₁.degree < d.degree) (h₂ : r₂.degree < d.degree) : q₁ = q₂ ∧ r₁ = r₂ := by
  have hdvd : d ∣ r₂ - r₁ := ⟨q₁ - q₂, by linear_combination -h⟩
  have hr : r₂ - r₁ = 0 :=
    eq_zero_of_dvd_of_degree_lt hdvd (lt_of_le_of_lt (degree_sub_le _ _) (max_lt h₂ h₁))
  have hd : d ≠ 0 := fun h0 => by rw [h0, degree_zero] at h₁; exact not_lt_bot h₁
  have hr' : r₁ = r₂ := (sub_eq_zero.mp hr).symm
  rw [hr', add_left_inj] at h
  exact ⟨mul_right_cancel₀ hd h, hr'⟩

/-- Quotient and remainder are those of `ℚ[X]`, by the uniqueness of the division identity. -/
lemma toPoly_div_mod (p : Polynomial) {q : Polynomial} (hq : q.isZero = false) :
    (p / q).toPoly = p.toPoly / q.toPoly ∧ (p % q).toPoly = p.toPoly % q.toPoly := by
  refine divMod_unique (d := q.toPoly) ?_ (degree_toPoly_mod_lt p hq)
    (degree_mod_lt _ (toPoly_ne_zero_iff.mpr hq))
  rw [toPoly_div_add_mod p hq, EuclideanDomain.div_add_mod']

/-- The quotient is that of `ℚ[X]`. -/
lemma toPoly_div (p : Polynomial) {q : Polynomial} (hq : q.isZero = false) :
    (p / q).toPoly = p.toPoly / q.toPoly := (toPoly_div_mod p hq).1

/-- The remainder is that of `ℚ[X]`. -/
lemma toPoly_mod (p : Polynomial) {q : Polynomial} (hq : q.isZero = false) :
    (p % q).toPoly = p.toPoly % q.toPoly := (toPoly_div_mod p hq).2

/-- Division by a divisor is exact. -/
lemma toPoly_div_mul_cancel {p q : Polynomial} (hq : q.isZero = false)
    (h : q.toPoly ∣ p.toPoly) : (p / q).toPoly * q.toPoly = p.toPoly := by
  rw [toPoly_div p hq, mul_comm]
  exact EuclideanDomain.mul_div_cancel' (toPoly_ne_zero_iff.mpr hq) h

/-! ### The greatest common divisor -/

lemma toPoly_monic {p : Polynomial} (hp : p.isZero = false) :
    p.monic.toPoly = C p.toPoly.leadingCoeff⁻¹ * p.toPoly := by
  rw [monic, if_neg (by simp [hp]), toPoly_scale, leadingCoefficient_eq, one_div]

/-- A polynomial and its monic multiple have the same divisors. -/
lemma dvd_monic_iff {d : ℚ[X]} (p : Polynomial) : d ∣ p.monic.toPoly ↔ d ∣ p.toPoly := by
  cases hp : p.isZero with
  | true => rw [monic, if_pos hp]
  | false =>
      have hlead : p.toPoly.leadingCoeff⁻¹ ≠ 0 :=
        inv_ne_zero (leadingCoeff_ne_zero.mpr (toPoly_ne_zero_iff.mpr hp))
      rw [toPoly_monic hp]
      exact (isUnit_C.mpr hlead.isUnit).dvd_mul_left

/-- The divisors of the greatest common divisor are the common divisors. -/
lemma dvd_gcd_iff {d : ℚ[X]} (p q : Polynomial) :
    d ∣ (gcd p q).toPoly ↔ d ∣ p.toPoly ∧ d ∣ q.toPoly := by
  fun_induction gcd p q with
  | case1 p q hq => rw [dvd_monic_iff, toPoly_eq_zero_iff.mpr hq, and_iff_left (dvd_zero d)]
  | case2 p q hq ih =>
      rw [Bool.not_eq_true] at hq
      -- a step keeps the common divisors, since dividend and remainder differ by a multiple
      rw [ih, and_comm]
      refine and_congr_left fun hd => ?_
      rw [← toPoly_div_add_mod p hq, dvd_add_right (dvd_mul_of_dvd_right hd _)]

/-- The monic polynomial of a nonzero one is monic. -/
lemma monic_toPoly_monic {p : Polynomial} (hp : p.isZero = false) : p.monic.toPoly.Monic := by
  have hlead : p.toPoly.leadingCoeff ≠ 0 := leadingCoeff_ne_zero.mpr (toPoly_ne_zero_iff.mpr hp)
  rw [toPoly_monic hp]
  exact monic_C_mul_of_mul_leadingCoeff_eq_one (inv_mul_cancel₀ hlead)

lemma monic_gcd (p : Polynomial) {q : Polynomial} (hq : q.isZero = false) :
    (gcd p q).toPoly.Monic := by
  fun_induction gcd p q with
  | case1 p q hzero =>
      rw [hq] at hzero
      cases hzero
  | case2 p q hne ih =>
      cases hr : (p % q).isZero with
      | true =>
          rw [gcd, if_pos hr]
          exact monic_toPoly_monic hq
      | false => exact ih hr

/-- The greatest common divisor divides both. -/
lemma gcd_dvd_left (p q : Polynomial) : (gcd p q).toPoly ∣ p.toPoly :=
  ((dvd_gcd_iff p q).mp dvd_rfl).1

lemma gcd_dvd_right (p q : Polynomial) : (gcd p q).toPoly ∣ q.toPoly :=
  ((dvd_gcd_iff p q).mp dvd_rfl).2

/-- Coprime polynomials have the greatest common divisor one. -/
lemma toPoly_gcd_eq_one {p q : Polynomial} (hq : q.isZero = false)
    (h : IsCoprime p.toPoly q.toPoly) : (gcd p q).toPoly = 1 :=
  (monic_gcd p hq).eq_one_of_isUnit
    (h.isUnit_of_dvd' (gcd_dvd_left p q) (gcd_dvd_right p q))

/-! ### Synthetic division -/

/-- Synthetic division satisfies the division identity for `x - c`. -/
lemma toPoly_syntheticDivide (p : Polynomial) (c : Rat) :
    p.toPoly = (X - C c) * (p.syntheticDivide c).quotient.toPoly
      + C (p.syntheticDivide c).remainder := by
  rw [syntheticDivide, toPoly_ofList]
  exact Coefficients.toPoly_eq_runningValues c p.ascending

/-- Synthetic division at a root is exact. -/
lemma toPoly_eq_of_root {p : Polynomial} {c : Rat} (h : p.toPoly.IsRoot c) :
    p.toPoly = (X - C c) * (p.syntheticDivide c).quotient.toPoly := by
  have hrem : (p.syntheticDivide c).remainder = 0 := by
    rw [remainder_syntheticDivide, eval_eq]; exact h
  have := toPoly_syntheticDivide p c
  rwa [hrem, C_0, add_zero] at this

end ExactAlgebra.Polynomial
