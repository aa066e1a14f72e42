import ExactAlgebra.Proofs.Polynomial.IntegralDomain

/-!
Substitution of one polynomial for the variable of another.

A step of Horner's method multiplies by the polynomial that is substituted and adds a coefficient,
so that the loop computes the composition of `ℚ[X]` (`toPoly_foldr_horner`, `toPoly_compose`), and
its result has the label of that polynomial (`label_compose`). The two determine a polynomial
(`ext_toPoly`): the laws hold for the polynomials as they are stored, labels included.

* **Monoid.** Substitution is associative (`compose_assoc`), and the variable is neutral on both
  sides (`compose_variable`, `variable_compose`).
* **Homomorphism.** It takes sums to sums and products to products (`add_compose`, `mul_compose`).
* **Derivatives** follow the chain rule (`derivative_compose`).
* **Degrees** multiply (`degree_compose`).

Main statement: `composition_laws`.
-/

open Polynomial

namespace ExactAlgebra.Polynomial

variable {p q : Polynomial}

/-! ### The variable -/

lemma toPoly_variable (label : Option String) : (monomial 1 1 label).toPoly = X := by
  simp [monomial]

/-- A polynomial keeps its coefficients when another variable is substituted, and takes the label
of that one. -/
lemma compose_variable (p : Polynomial) (label : Option String) :
    p.compose (monomial 1 1 label) = p.withLabel label := by
  refine ext_toPoly ?_ (label_compose _ _)
  rw [toPoly_compose, toPoly_variable, comp_X, toPoly_withLabel]

/-- The variable composed with a polynomial is this polynomial. -/
lemma variable_compose (p : Polynomial) (label : Option String) :
    (monomial 1 1 label).compose p = p := by
  refine ext_toPoly ?_ (label_compose _ _)
  rw [toPoly_compose, toPoly_variable, X_comp]

/-! ### Sums, products and compositions -/

/-- Composition is associative. -/
lemma compose_assoc (p q r : Polynomial) : (p.compose q).compose r = p.compose (q.compose r) := by
  refine ext_toPoly ?_ ?_
  · simp only [toPoly_compose, comp_assoc]
  · simp only [label_compose]

lemma add_compose (p q r : Polynomial) : (p + q).compose r = p.compose r + q.compose r := by
  refine ext_toPoly ?_ ?_
  · simp only [toPoly_compose, toPoly_add, add_comp]
  · rw [label_add, jointLabel_of_label_eq] <;> simp only [label_compose]

lemma mul_compose (p q r : Polynomial) : (p * q).compose r = p.compose r * q.compose r := by
  refine ext_toPoly ?_ ?_
  · simp only [toPoly_compose, toPoly_mul, mul_comp]
  · rw [label_mul, jointLabel_of_label_eq] <;> simp only [label_compose]

/-! ### Derivatives and degrees -/

/-- The chain rule. -/
lemma derivative_compose (p q : Polynomial) :
    (p.compose q).derivative 1 = (p.derivative 1).compose q * q.derivative 1 := by
  refine ext_toPoly ?_ ?_
  · simp only [toPoly_derivative_one, toPoly_compose, toPoly_mul, derivative_comp]
    rw [mul_comm]
  · rw [label_mul, jointLabel_of_label_eq] <;> simp only [label_compose, label_derivative]

/-- Degrees multiply. For a constant `q` the composition is a value of `p` and may be zero. -/
lemma degree_compose (hp : 1 ≤ p.degree) (hq : 1 ≤ q.degree) :
    (p.compose q).degree = p.degree * q.degree := by
  have hp' := degree_eq (isZero_of_degree_nonneg (by omega : 0 ≤ p.degree))
  have hq' := degree_eq (isZero_of_degree_nonneg (by omega : 0 ≤ q.degree))
  have hdegree : (p.compose q).toPoly.natDegree = p.toPoly.natDegree * q.toPoly.natDegree := by
    rw [toPoly_compose, natDegree_comp]
  have hne : (p.compose q).isZero = false := by
    refine toPoly_ne_zero_iff.mp (ne_zero_of_natDegree_gt (n := 0) ?_)
    rw [hdegree]
    exact Nat.mul_pos (by omega) (by omega)
  rw [degree_eq hne, hdegree, hp', hq', Nat.cast_mul]

/-- **Substitution is a monoid operation and a homomorphism.** It is associative, and the variable
is neutral on both sides, where the label of a result is always that of the polynomial that is
substituted. A sum or a product is substituted into operand by operand. The derivative of a
composition follows the chain rule, and the degrees of polynomials that are not constant
multiply. -/
theorem composition_laws (p q r : Polynomial) :
    (p.compose q).compose r = p.compose (q.compose r)
    ∧ (∀ label, (p.compose (monomial 1 1 label) == p) = true
      ∧ p.compose (monomial 1 1 label) = p.withLabel label
      ∧ (monomial 1 1 label).compose p = p)
    ∧ (p + q).compose r = p.compose r + q.compose r
    ∧ (p * q).compose r = p.compose r * q.compose r
    ∧ (p.compose q).derivative 1 = (p.derivative 1).compose q * q.derivative 1
    ∧ (1 ≤ p.degree → 1 ≤ q.degree → (p.compose q).degree = p.degree * q.degree) := by
  refine ⟨compose_assoc p q r, fun label => ?_, add_compose p q r, mul_compose p q r,
    derivative_compose p q, degree_compose⟩
  refine ⟨?_, compose_variable p label, variable_compose p label⟩
  rw [beq_iff_toPoly, compose_variable, toPoly_withLabel]

/-- The cubic `x³/2 - x` substituted in the quadratic `1 - 2t + 3t²`. -/
theorem composition_laws_cubic :
    let p : Polynomial := ofList [1, -2, 3] (some "t")
    let q : Polynomial := ofList [0, -1, 0, 1 / 2] none
    1 ≤ p.degree ∧ 1 ≤ q.degree ∧ (p.compose q).degree = 6
      ∧ (p.compose q).coefficients = [1, 2, 3, -1, -3, 0, 3 / 4]
      ∧ (p.compose q).derivative 1 = (p.derivative 1).compose q * q.derivative 1 := by
  intro p q
  have hp : 1 ≤ p.degree := by decide +kernel
  have hq : 1 ≤ q.degree := by decide +kernel
  obtain ⟨-, -, -, -, hchain, hdegree⟩ := composition_laws p q q
  refine ⟨hp, hq, ?_, by decide +kernel, hchain⟩
  rw [hdegree hp hq]
  decide +kernel

end ExactAlgebra.Polynomial
