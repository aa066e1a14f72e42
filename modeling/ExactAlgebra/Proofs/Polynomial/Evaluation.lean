import Mathlib.LinearAlgebra.Lagrange
import ExactAlgebra.Proofs.Polynomial.Denotation

/-!
Polynomials as functions on the rational numbers.

* **Substitution.** Horner's method over polynomials is the composition of `ℚ[X]`
  (`toPoly_compose`).
* **Values.** `eval` is the sum of the terms (`eval_eq_sum`), and it takes every operation on
  polynomials to the operation on numbers.
* **Equality.** Two polynomials with the same values at more points than their degrees are
  equal (`beq_of_eval_eq`), since their difference has no more roots than its degree.

Main statement: `eval_homomorphism`.
-/

open Polynomial

namespace ExactAlgebra.Polynomial

variable {p q : Polynomial}

/-! ### Substitution -/

/-- The loop of Horner's method over polynomials composes a coefficient list with `q`. Its step is
the composition of `c + x f`. -/
lemma toPoly_foldr_horner (q : Polynomial) (cs : List ℚ) :
    (cs.foldr (fun c acc => acc * q + const c q.label) (zero q.label)).toPoly
      = (Coefficients.toPoly cs).comp q.toPoly := by
  induction cs with
  | nil => simp
  | cons c cs ih =>
      rw [List.foldr_cons, toPoly_add, toPoly_mul, ih, toPoly_const, Coefficients.toPoly_cons,
        add_comp, C_comp, mul_comp, X_comp]
      ring

/-- Composition is that of `ℚ[X]`. -/
@[simp] lemma toPoly_compose (p q : Polynomial) :
    (p.compose q).toPoly = p.toPoly.comp q.toPoly := by
  rw [compose, toPoly_foldr_horner, toPoly_ofList_coefficients]

/-! ### Values -/

lemma natDegree_lt_length (p : Polynomial) : p.toPoly.natDegree < p.coefficients.length := by
  have hpos : 0 < p.coefficients.length := List.length_pos_iff.mpr p.coefficients_ne_nil
  rw [← toPoly_ofList_coefficients]
  by_cases h0 : Coefficients.toPoly p.coefficients = 0
  · rwa [h0, natDegree_zero]
  · exact (natDegree_lt_iff_degree_lt h0).mpr (Coefficients.degree_toPoly_lt _)

/-- The value is the sum of the values of the terms. -/
lemma eval_eq_sum (p : Polynomial) (x : ℚ) :
    p.eval x = ∑ i ∈ Finset.range p.coefficients.length, p.coefficient i * x ^ i := by
  rw [eval_eq, eval_eq_sum_range' p.natDegree_lt_length]
  exact Finset.sum_congr rfl fun i _ => by rw [coefficient_eq]

/-! ### Equality -/

/-- A bound on the degree holds for the degree in `ℚ[X]`, where that of zero is `⊥`. -/
lemma degree_toPoly_lt_of_degree_lt {n : ℕ} (h : p.degree < n) : p.toPoly.degree < n := by
  have hlen : p.ascending.length ≤ n := by
    rw [degree] at h
    omega
  exact lt_of_lt_of_le (Coefficients.degree_toPoly_lt p.ascending) (by exact_mod_cast hlen)

/-- Polynomials that agree at more points than their degrees are equal. -/
lemma beq_of_eval_eq {points : Finset ℚ} (hp : p.degree < points.card)
    (hq : q.degree < points.card) (h : ∀ x ∈ points, p.eval x = q.eval x) : (p == q) = true := by
  rw [beq_iff_toPoly]
  refine eq_of_degrees_lt_of_eval_finset_eq points (degree_toPoly_lt_of_degree_lt hp)
    (degree_toPoly_lt_of_degree_lt hq) fun x hx => ?_
  rw [← eval_eq, ← eval_eq, h x hx]

/-- Equal polynomials have equal values. -/
lemma eval_congr (h : (p == q) = true) (x : ℚ) : p.eval x = q.eval x := by
  rw [eval_eq, eval_eq, beq_iff_toPoly.mp h]

/-- There are as many rational points as a comparison needs. -/
lemma exists_points (d : ℤ) : ∃ points : Finset ℚ, d < points.card := by
  obtain ⟨points, hcard⟩ := Infinite.exists_subset_card_eq ℚ (d.toNat + 1)
  exact ⟨points, by omega⟩

/-- **Evaluation is a homomorphism that separates polynomials.** The value at a point is the
sum of the values of the terms. Sum, difference, product, multiple, power and composition of
polynomials have the sum, the difference, the product, the multiple, the power and the
composition of the values. Equal polynomials are those with the same coefficients, and two
polynomials are equal exactly when they have the same values at some set of more points than
both degrees. -/
theorem eval_homomorphism (p q : Polynomial) :
    (∀ x, p.eval x = ∑ i ∈ Finset.range p.coefficients.length, p.coefficient i * x ^ i)
    ∧ (∀ x, (p + q).eval x = p.eval x + q.eval x)
    ∧ (∀ x, (p - q).eval x = p.eval x - q.eval x)
    ∧ (∀ x, (p * q).eval x = p.eval x * q.eval x)
    ∧ (∀ c x, (p.scale c).eval x = c * p.eval x)
    ∧ (∀ (n : ℕ) x, (p ^ n).eval x = p.eval x ^ n)
    ∧ (∀ x, (p.compose q).eval x = p.eval (q.eval x))
    ∧ ((p == q) = true ↔ p.coefficients = q.coefficients)
    ∧ ((p == q) = true ↔ ∃ points : Finset ℚ,
        max p.degree q.degree < points.card ∧ ∀ x ∈ points, p.eval x = q.eval x) := by
  refine ⟨p.eval_eq_sum, fun x => ?_, fun x => ?_, fun x => ?_, fun c x => ?_, fun n x => ?_,
    fun x => ?_, ?_, ⟨fun h => ?_, ?_⟩⟩
  · rw [eval_eq, toPoly_add, eval_add, ← eval_eq, ← eval_eq]
  · rw [eval_eq, toPoly_sub, eval_sub, ← eval_eq, ← eval_eq]
  · rw [eval_eq, toPoly_mul, eval_mul, ← eval_eq, ← eval_eq]
  · rw [eval_eq, toPoly_scale, eval_mul, eval_C, ← eval_eq]
  · rw [eval_eq, toPoly_pow, eval_pow, ← eval_eq]
  · rw [eval_eq, toPoly_compose, eval_comp, ← eval_eq q, ← eval_eq p]
  · rw [beq_iff_toPoly, coefficients_eq_iff]
  · obtain ⟨points, hcard⟩ := exists_points (max p.degree q.degree)
    exact ⟨points, hcard, fun x _ => eval_congr h x⟩
  · rintro ⟨points, hcard, h⟩
    exact beq_of_eval_eq (lt_of_le_of_lt (le_max_left _ _) hcard)
      (lt_of_le_of_lt (le_max_right _ _) hcard) h

end ExactAlgebra.Polynomial
