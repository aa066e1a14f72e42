import ExactAlgebra.Proofs.Polynomial.Evaluation

/-!
Polynomials form an integral domain under equality of coefficients.

* **Degrees by coefficients.** The degree is below `n` when no coefficient from `n` on is left
  (`degree_lt_iff_coefficient`). Hence a polynomial of degree at most `n` has the degree `n`
  unless its coefficient at `n` vanishes (`degree_lt_iff_of_degree_le`), and the coefficient at
  the degree is the leading one (`coefficient_of_degree_eq`).
* **Products.** Degrees add up and leading coefficients multiply (`degree_mul`,
  `leadingCoefficient_mul`); there are no zero divisors (`isZero_mul_iff`).
* **Sums.** The degree of a sum is bounded by both degrees (`degree_add_le`) and falls below
  them when the leading coefficients cancel (`degree_add_lt_iff`).

Main statement: `integral_domain`.
-/

open Polynomial

namespace ExactAlgebra.Polynomial

variable {p q : Polynomial} {n : ℕ}

/-! ### Degrees by coefficients -/

/-- The degree is that of the polynomial over `ℚ`, with `-1` in the place of `⊥`. -/
lemma degree_lt_iff_toPoly : p.degree < n ↔ p.toPoly.degree < n := by
  refine ⟨degree_toPoly_lt_of_degree_lt, fun h => ?_⟩
  cases hp : p.isZero with
  | true => rw [degree_zero_eq hp]; omega
  | false =>
      rw [degree_eq_natDegree (toPoly_ne_zero_iff.mpr hp), Nat.cast_lt] at h
      rw [degree_eq hp]
      exact_mod_cast h

/-- A degree is below `n` when no coefficient from `n` on is left. -/
lemma degree_lt_iff_coefficient : p.degree < n ↔ ∀ k, n ≤ k → p.coefficient k = 0 := by
  simp only [degree_lt_iff_toPoly, degree_lt_iff_coeff_zero, coefficient_eq]

/-- The highest place that a degree allows decides whether it is reached. -/
lemma degree_lt_iff_of_degree_le (h : p.degree ≤ n) : p.degree < n ↔ p.coefficient n = 0 := by
  rw [degree_lt_iff_coefficient]
  refine ⟨fun hp => hp n le_rfl, fun hn k hk => ?_⟩
  -- above `n` nothing is left anyway
  have hsucc : p.degree < (n + 1 : ℕ) := by push_cast; omega
  rcases eq_or_lt_of_le hk with rfl | hlt
  · exact hn
  · exact degree_lt_iff_coefficient.mp hsucc k hlt

/-- No degree is below that of the zero polynomial. -/
lemma neg_one_le_degree (p : Polynomial) : -1 ≤ p.degree := by
  rw [degree]
  omega

/-- The degree of a nonzero polynomial is a natural number. -/
lemma degree_nonneg (hp : p.isZero = false) : 0 ≤ p.degree := by
  rw [degree_eq hp]
  exact Int.natCast_nonneg _

/-- Only a nonzero polynomial has a degree of at least `0`. -/
lemma isZero_of_degree_nonneg (h : 0 ≤ p.degree) : p.isZero = false := by
  by_contra hp
  rw [degree_zero_eq (Bool.not_eq_false _ ▸ hp)] at h
  omega

/-- The coefficient at the degree is the leading one. -/
lemma coefficient_of_degree_eq (h : p.degree = n) : p.coefficient n = p.leadingCoefficient := by
  have hp : p.isZero = false := isZero_of_degree_nonneg (by omega)
  rw [degree_eq hp, Nat.cast_inj] at h
  rw [coefficient_eq, leadingCoefficient_eq, ← h, coeff_natDegree]

/-- Above the degree there are no coefficients. -/
lemma coefficient_of_degree_lt (h : p.degree < n) : p.coefficient n = 0 :=
  degree_lt_iff_coefficient.mp h n le_rfl

/-! ### Products -/

/-- There are no zero divisors. -/
lemma isZero_mul_iff : (p * q).isZero = true ↔ p.isZero = true ∨ q.isZero = true := by
  simp only [← toPoly_eq_zero_iff, toPoly_mul, mul_eq_zero]

/-- Degrees of nonzero polynomials add up. -/
lemma degree_mul (hp : p.isZero = false) (hq : q.isZero = false) :
    (p * q).degree = p.degree + q.degree := by
  rw [degree_eq (isZero_mul hp hq), degree_eq hp, degree_eq hq, toPoly_mul,
    natDegree_mul (toPoly_ne_zero_iff.mpr hp) (toPoly_ne_zero_iff.mpr hq), Nat.cast_add]

/-- Leading coefficients multiply, zero polynomials included. -/
lemma leadingCoefficient_mul (p q : Polynomial) :
    (p * q).leadingCoefficient = p.leadingCoefficient * q.leadingCoefficient := by
  simp only [leadingCoefficient_eq, toPoly_mul, leadingCoeff_mul]

/-! ### Sums -/

/-- Coefficients are added place by place. -/
lemma coefficient_add (p q : Polynomial) (n : ℕ) :
    (p + q).coefficient n = p.coefficient n + q.coefficient n := by
  rw [coefficient_eq, coefficient_eq, coefficient_eq, toPoly_add, coeff_add]

/-- No sum has a degree above both. -/
lemma degree_add_le (p q : Polynomial) : (p + q).degree ≤ max p.degree q.degree := by
  obtain ⟨n, hn⟩ := Int.eq_ofNat_of_zero_le (a := max p.degree q.degree + 1)
    (by have := p.neg_one_le_degree; omega)
  -- `n` is the first place above both degrees
  suffices h : (p + q).degree < n by omega
  refine degree_lt_iff_coefficient.mpr fun k hk => ?_
  rw [coefficient_add, coefficient_of_degree_lt (by omega), coefficient_of_degree_lt (by omega),
    add_zero]

/-- The degree of a sum falls when the leading coefficients stand at one place and cancel. -/
lemma degree_add_lt_iff (h : ¬(p.isZero = true ∧ q.isZero = true)) :
    (p + q).degree < max p.degree q.degree ↔
      p.degree = q.degree ∧ p.leadingCoefficient + q.leadingCoefficient = 0 := by
  have hnonneg : 0 ≤ max p.degree q.degree := by
    rcases not_and_or.mp h with hp | hq
    · exact le_max_of_le_left (degree_nonneg (Bool.not_eq_true _ ▸ hp))
    · exact le_max_of_le_right (degree_nonneg (Bool.not_eq_true _ ▸ hq))
  obtain ⟨n, hn⟩ := Int.eq_ofNat_of_zero_le hnonneg
  -- the coefficient of the sum at the larger degree decides
  have hle := degree_add_le p q
  rw [hn] at hle ⊢
  rw [degree_lt_iff_of_degree_le hle, coefficient_add]
  have hzero {r : Polynomial} (hr : r.degree = n) : r.leadingCoefficient ≠ 0 :=
    leadingCoefficient_ne_zero (isZero_of_degree_nonneg (by omega))
  rcases lt_trichotomy p.degree q.degree with hlt | heq | hgt
  · have hq : q.degree = n := by omega
    rw [coefficient_of_degree_lt (by omega), coefficient_of_degree_eq hq, zero_add]
    exact ⟨fun h0 => absurd h0 (hzero hq), fun h0 => absurd h0.1 hlt.ne⟩
  · rw [coefficient_of_degree_eq (p := p) (by omega), coefficient_of_degree_eq (p := q) (by omega)]
    exact (and_iff_right heq).symm
  · have hp : p.degree = n := by omega
    rw [coefficient_of_degree_lt (p := q) (by omega), coefficient_of_degree_eq hp, add_zero]
    exact ⟨fun h0 => absurd h0 (hzero hp), fun h0 => absurd h0.1 hgt.ne'⟩

/-! ### The integral domain -/

/-- **Polynomials form an integral domain under equality of coefficients.** Sum and product are
commutative and associative, the product distributes over the sum, the difference is the sum
with the negative, and powers have the laws of powers. There are no zero divisors: of nonzero
polynomials the degrees add up and the leading coefficients multiply. The degree of a sum is at
most the larger degree, and of polynomials that are not both zero it is smaller exactly when
the degrees are equal and the leading coefficients cancel. -/
theorem integral_domain (p q r : Polynomial) (m n : ℕ) :
    ((p == q) = true ↔ p.coefficients = q.coefficients)
    ∧ ((p + q == q + p) = true ∧ (p + q + r == p + (q + r)) = true
      ∧ (p * q == q * p) = true ∧ (p * q * r == p * (q * r)) = true
      ∧ (p * (q + r) == p * q + p * r) = true
      ∧ (p - q == p + -q) = true ∧ (p - p).isZero = true
      ∧ (p ^ (m + n) == p ^ m * p ^ n) = true ∧ ((p * q) ^ n == p ^ n * q ^ n) = true)
    ∧ ((p * q).isZero = true ↔ p.isZero = true ∨ q.isZero = true)
    ∧ (p.isZero = false → q.isZero = false →
      (p * q).degree = p.degree + q.degree
      ∧ (p * q).leadingCoefficient = p.leadingCoefficient * q.leadingCoefficient)
    ∧ (p + q).degree ≤ max p.degree q.degree
    ∧ (¬(p.isZero = true ∧ q.isZero = true) →
      ((p + q).degree < max p.degree q.degree ↔
        p.degree = q.degree ∧ p.leadingCoefficient + q.leadingCoefficient = 0)) := by
  refine ⟨?_, ?_, isZero_mul_iff, fun hp hq => ⟨degree_mul hp hq, leadingCoefficient_mul p q⟩,
    degree_add_le p q, degree_add_lt_iff⟩
  · -- equal polynomials store equal lists, since the lists are trimmed
    rw [beq_iff_toPoly, coefficients_eq_iff]
  · -- the laws of sums, products and powers are those of `ℚ[X]`
    simp only [beq_iff_toPoly, ← toPoly_eq_zero_iff, toPoly_add, toPoly_sub, toPoly_neg,
      toPoly_mul, toPoly_pow]
    exact ⟨add_comm _ _, add_assoc _ _ _, mul_comm _ _, mul_assoc _ _ _, mul_add _ _ _,
      sub_eq_add_neg _ _, sub_self _, pow_add _ _ _, mul_pow _ _ _⟩

/-- The polynomials `1/2 + 3x²` and `x - 3x²`, whose leading coefficients cancel in the sum. -/
theorem integral_domain_cancelling :
    let p : Polynomial := .ofList [1 / 2, 0, 3] (some "t")
    let q : Polynomial := .ofList [0, 1, -3, 0] none
    p.isZero = false ∧ q.isZero = false ∧ (p * q).degree = 4
      ∧ (p * q).leadingCoefficient = -9 ∧ (p + q).degree < max p.degree q.degree := by
  intro p q
  have hp : p.isZero = false := by decide +kernel
  have hq : q.isZero = false := by decide +kernel
  obtain ⟨-, -, -, hmul, -, hadd⟩ := integral_domain p q p 2 3
  have hdegree := (hmul hp hq).1
  have hlead := (hmul hp hq).2
  refine ⟨hp, hq, ?_, ?_, (hadd (by simp [hp])).mpr (by decide +kernel)⟩
  · rw [hdegree]; decide +kernel
  · rw [hlead]; decide +kernel

end ExactAlgebra.Polynomial
