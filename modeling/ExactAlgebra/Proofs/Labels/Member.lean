import ExactAlgebra.Proofs.Labels.Value
import ExactAlgebra.Value.Member

/-!
Members of objects do not see labels.

* **Values and derivatives.** An object has the same values at all points, and derivatives that
  differ in labels only, whatever its labels are (`seen_pointFunction?`, `seen_derivatives?`).
* **Coefficients.** Sign changes and the rule of signs read the coefficients alone
  (`signChanges?_unlabelled`, `seen_ruleOfSigns?`); synthetic division and expansion about a point
  hand the label on to their result (`seen_syntheticDivision?`, `seen_rebased?`).
* **Roots.** The polynomial whose roots are asked for is the same up to its label
  (`seen_rootSubject?`).
-/

namespace ExactAlgebra

/-- The polynomial in the distance from the center has the label of the expansion. -/
lemma TaylorExpansion.unlabelled_inDistance (t : TaylorExpansion) :
    t.inDistance.unlabelled = t.unlabelled.inDistance := rfl

/-- A new center changes the coefficients and not the label. -/
lemma TaylorExpansion.unlabelled_rebase (t : TaylorExpansion) (a : ℚ) :
    (t.rebase a).unlabelled = t.unlabelled.rebase a := by
  rw [rebase, rebase, ← unlabelled_inDistance, Polynomial.taylorCoefficients_unlabelled]
  rfl

namespace Value

variable (v : Value)

/-! ### Values, derivatives and pairs -/

/-- What is seen of a function is what is seen of its values. -/
lemma seen_pointFunction? :
    seen (fun f x => seen unlabelled (f x)) v.unlabelled.pointFunction?
      = seen (fun f x => seen unlabelled (f x)) v.pointFunction? := by
  cases v with
  | function r =>
      exact congrArg Except.ok (funext fun x => seen_bind_id (r.seen_eval? x) fun _ => rfl)
  | _ => rfl

/-- Derivatives of all orders differ in their labels only. -/
lemma seen_derivatives? :
    seen (fun f n => (f n).unlabelled) v.unlabelled.derivatives?
      = seen (fun f n => (f n).unlabelled) v.derivatives? := by
  cases v with
  | function r =>
      exact congrArg Except.ok (funext fun n => congrArg function (by
        rw [RationalFunction.unlabelled_derivative, RationalFunction.unlabelled_derivative,
          RationalFunction.unlabelled_unlabelled]))
  | _ => rfl

/-- The pairs of integers show the coefficients and no label. -/
@[simp] lemma pairs?_unlabelled : v.unlabelled.pairs? = v.pairs? := by
  cases v <;> rfl

/-- The canonical form of a rational function keeps the labels, and a number is its own. -/
lemma seen_simplified? :
    seen unlabelled v.unlabelled.simplified? = seen unlabelled v.simplified? := by
  cases v with
  | function r =>
      simp only [unlabelled, simplified?, seen_ok, RationalFunction.unlabelled_simplify,
        RationalFunction.unlabelled_unlabelled]
  | _ => rfl

/-! ### Coefficients -/

/-- Changes of sign are counted along the coefficients. -/
@[simp] lemma signChanges?_unlabelled : v.unlabelled.signChanges? = v.signChanges? := by
  cases v <;> rfl

/-- An expansion must have a coefficient for the rule of signs. -/
lemma seen_ruleOfSigns? :
    seen id v.unlabelled.ruleOfSigns? = seen id v.ruleOfSigns? := by
  cases v with
  | taylor t =>
      exact seen_bind_ok t.seen_shiftedPolynomial? fun _ _ h =>
        eq_of_view Polynomial.ruleOfSigns_unlabelled h
  | _ => rfl

/-- The quotient has the label of what is divided; an expansion without coefficients is refused. -/
lemma seen_syntheticDivision? (c : ℚ) :
    seen SyntheticDivision.unlabelled (v.unlabelled.syntheticDivision? c)
      = seen SyntheticDivision.unlabelled (v.syntheticDivision? c) := by
  cases v with
  | taylor t =>
      obtain ⟨center, coefficients, label⟩ := t
      cases coefficients <;> rfl
  | _ => rfl

/-- The expansion about a point has the label of what is expanded. -/
lemma seen_rebased? (a : ℚ) :
    seen TaylorExpansion.unlabelled (v.unlabelled.rebased? a)
      = seen TaylorExpansion.unlabelled (v.rebased? a) := by
  cases v with
  | polynomial p =>
      simp only [unlabelled, rebased?, seen_ok, Polynomial.unlabelled_rebase,
        Polynomial.unlabelled_unlabelled]
  | taylor t =>
      simp only [unlabelled, rebased?, seen_ok, TaylorExpansion.unlabelled_rebase]
      rfl
  | _ => rfl

/-! ### Roots and expressions -/

/-- An object that is no polynomial is refused, as zero or for want of the member. -/
lemma seen_rootSubject? (zeroCause : Error) :
    seen Polynomial.unlabelled (v.unlabelled.rootSubject? zeroCause)
      = seen Polynomial.unlabelled (v.rootSubject? zeroCause) := by
  rw [rootSubject?.eq_def _ v]
  split
  · rfl
  · next hpolynomial =>
      -- the field that is asked for tells whether the object is zero
      rw [rootSubject?.eq_2 _ _ (unlabelled_ne_polynomial hpolynomial),
        field?_unlabelled v (by decide) (by decide)]
      cases v.field? "is_zero" with
      | none => rfl
      | some u => cases u <;> rfl

/-- An expression is written in the symbol that is given, whatever the label is. -/
@[simp] lemma expressionIn?_unlabelled : v.unlabelled.expressionIn? = v.expressionIn? := by
  cases v <;> rfl

end Value

end ExactAlgebra
