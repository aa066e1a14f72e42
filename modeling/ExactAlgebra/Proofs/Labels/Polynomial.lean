import ExactAlgebra.Polynomial.Calculus
import ExactAlgebra.Polynomial.Taylor
import ExactAlgebra.Proofs.Labels.Observation
import ExactAlgebra.Proofs.Roots.Rational
import ExactAlgebra.Roots.Bound
import ExactAlgebra.Roots.Multiplicity
import ExactAlgebra.Roots.Signs

/-!
Polynomials without their labels.

`Polynomial.unlabelled` drops the label, and so do `SyntheticDivision.unlabelled`,
`RootFactorization.unlabelled` and `TaylorExpansion.unlabelled` for the data that polynomials are
divided and expanded into.

* **Operations.** Every operation on polynomials commutes with dropping the labels of operands and
  result. For those that loop, this is an induction over the loop: `unlabelled_pow`,
  `unlabelled_gcd`, `unlabelled_compose`.
* **Numbers.** Everything that is read off a polynomial as a number is the same without the label,
  such as `taylorCoefficients_unlabelled`.
* **Roots.** The searches for roots and for multiplicities are seen alike with and without the
  label (`seen_rationalRoots`, `seen_rootMultiplicities`); the step is one division
  (`divideOut_unlabelled`).
-/

namespace ExactAlgebra

open Coefficients

namespace Polynomial

/-- The polynomial without its label. -/
def unlabelled (p : Polynomial) : Polynomial := p.withLabel none

variable (p q : Polynomial)

/-! ### Numbers -/

/-- What is read off the coefficients does not change with the label. -/
@[simp] lemma isZero_unlabelled : p.unlabelled.isZero = p.isZero := rfl

@[simp] lemma degree_unlabelled : p.unlabelled.degree = p.degree := rfl

@[simp] lemma coefficients_unlabelled : p.unlabelled.coefficients = p.coefficients := rfl

@[simp] lemma leadingCoefficient_unlabelled :
    p.unlabelled.leadingCoefficient = p.leadingCoefficient := rfl

@[simp] lemma eval_unlabelled (x : ℚ) : p.unlabelled.eval x = p.eval x := rfl

lemma coefficient_unlabelled (n : ℕ) : p.unlabelled.coefficient n = p.coefficient n := rfl

lemma ruleOfSigns_unlabelled : p.unlabelled.ruleOfSigns = p.ruleOfSigns := rfl

lemma cauchyBound_unlabelled : p.unlabelled.cauchyBound = p.cauchyBound := rfl

/-! ### Operations -/

@[simp] lemma unlabelled_unlabelled : p.unlabelled.unlabelled = p.unlabelled := rfl

/-- One label is dropped in place of another. -/
@[simp] lemma unlabelled_withLabel (label : Option String) :
    (p.withLabel label).unlabelled = p.unlabelled := rfl

@[simp] lemma unlabelled_const (c : ℚ) (label : Option String) :
    (const c label).unlabelled = const c none := rfl

@[simp] lemma unlabelled_zero (label : Option String) : (zero label).unlabelled = zero none := rfl

/-- The label of a sum is chosen from those of its summands, and is dropped with them. -/
@[simp] lemma unlabelled_add : (p + q).unlabelled = p.unlabelled + q.unlabelled := rfl

@[simp] lemma unlabelled_sub : (p - q).unlabelled = p.unlabelled - q.unlabelled := rfl

@[simp] lemma unlabelled_mul : (p * q).unlabelled = p.unlabelled * q.unlabelled := rfl

@[simp] lemma unlabelled_neg : (-p).unlabelled = -p.unlabelled := rfl

@[simp] lemma unlabelled_scale (c : ℚ) : (p.scale c).unlabelled = p.unlabelled.scale c := rfl

@[simp] lemma unlabelled_div : (p / q).unlabelled = p.unlabelled / q.unlabelled := rfl

@[simp] lemma unlabelled_mod : (p % q).unlabelled = p.unlabelled % q.unlabelled := rfl

@[simp] lemma unlabelled_integral (c : ℚ) :
    (p.integral c).unlabelled = p.unlabelled.integral c := rfl

/-- A power is multiplied up, factor by factor. -/
@[simp] lemma unlabelled_pow (n : ℕ) : (p ^ n).unlabelled = p.unlabelled ^ n := by
  induction n with
  | zero => rfl
  | succ n ih =>
      change (p ^ n * p).unlabelled = p.unlabelled ^ n * p.unlabelled
      rw [unlabelled_mul, ih]

/-- The zero polynomial, which has no leading coefficient, is left as it is. -/
@[simp] lemma unlabelled_monic : p.monic.unlabelled = p.unlabelled.monic := by
  unfold monic
  rw [isZero_unlabelled, apply_ite unlabelled]
  rfl

/-- The primitive part is the same under every label. -/
@[simp] lemma unlabelled_primitive : p.primitive.unlabelled = p.unlabelled.primitive :=
  (primitive_withLabel p none).symm

/-- Horner's method over polynomials, coefficient by coefficient. -/
@[simp] lemma unlabelled_compose :
    (p.compose q).unlabelled = p.unlabelled.compose q.unlabelled := by
  rw [compose, compose, coefficients_unlabelled]
  induction p.coefficients with
  | nil => rfl
  | cons c cs ih =>
      rw [List.foldr_cons, List.foldr_cons, unlabelled_add, unlabelled_mul, ih]
      rfl

/-- Euclid's algorithm, division by division. -/
@[simp] lemma unlabelled_gcd : (p.gcd q).unlabelled = p.unlabelled.gcd q.unlabelled := by
  -- the remainder zero ends both runs at one division
  fun_induction gcd p q with
  | case1 p q hq => rw [gcd, isZero_unlabelled, if_pos hq, unlabelled_monic]
  | case2 p q hq ih =>
      rw [ih, gcd.eq_def p.unlabelled, isZero_unlabelled, if_neg hq, unlabelled_mod]

/-- The product so far is the same without its label, factor after factor. -/
lemma unlabelled_foldl_linear (roots : List ℚ) (label : Option String) :
    (roots.foldl (fun p r => p * linear r label) p).unlabelled
      = roots.foldl (fun p r => p * linear r none) p.unlabelled := by
  induction roots generalizing p with
  | nil => rfl
  | cons r roots ih => exact ih _

/-- The linear factors carry the label that is given, and the product loses it with them. -/
lemma unlabelled_ofRoots (roots : List ℚ) (label : Option String) :
    (ofRoots roots label).unlabelled = ofRoots roots none :=
  (one label).unlabelled_foldl_linear roots label

/-- Long division refuses the divisor zero, whatever its label is. -/
lemma seen_divMod? {p p' q q' : Polynomial} (hp : p.unlabelled = p'.unlabelled)
    (hq : q.unlabelled = q'.unlabelled) :
    seen (Prod.map unlabelled unlabelled) (p.divMod? q)
      = seen (Prod.map unlabelled unlabelled) (p'.divMod? q') := by
  have hzero : q.isZero = q'.isZero := by rw [← q.isZero_unlabelled, hq, isZero_unlabelled]
  rw [divMod?, divMod?, hzero]
  split
  · rfl
  · simp only [seen_ok, Prod.map_apply, unlabelled_div, unlabelled_mod, hp, hq]

/-! ### Roots -/

/-- The form in which the roots are searched. -/
lemma seen_integerForm? (clear : Bool) :
    seen unlabelled (p.unlabelled.integerForm? clear) = seen unlabelled (p.integerForm? clear) := by
  rw [integerForm?, integerForm?, ← unlabelled_primitive]
  change seen unlabelled (if p.isIntegral = true then _ else _) = _
  split
  · rfl
  · split
    · rfl
    · simp only [seen_error, Error.withoutTexts]

/-- The candidates and the trials read coefficients only. -/
lemma nonzeroRoots_unlabelled (limit : ℤ) :
    p.unlabelled.withoutLowZeros.nonzeroRoots limit = p.withoutLowZeros.nonzeroRoots limit := rfl

/-- The rational roots are found, or the search fails, whatever the label is. -/
lemma seen_rationalRoots (clear : Bool) (limit : ℤ) :
    seen id (p.unlabelled.rationalRoots clear limit) = seen id (p.rationalRoots clear limit) := by
  rw [rationalRoots, rationalRoots, isZero_unlabelled]
  split
  · rfl
  · refine seen_bind (p.seen_integerForm? clear) fun w w' hw => ?_
    -- the integer forms differ in labels only, and the search reads their coefficients
    have hroots := eq_of_view (F := fun p => p.withoutLowZeros.nonzeroRoots limit)
      (fun p => p.nonzeroRoots_unlabelled limit) hw
    have hcoefficient := eq_of_view (F := fun p => p.coefficient 0)
      (fun p => p.coefficient_unlabelled 0) hw
    rw [hroots, hcoefficient]

end Polynomial

/-! ### Synthetic division and multiplicities -/

/-- A synthetic division without the label of its quotient. -/
def SyntheticDivision.unlabelled (d : SyntheticDivision) : SyntheticDivision :=
  { d with quotient := d.quotient.unlabelled }

/-- A factorization without the label of its cofactor. -/
def RootFactorization.unlabelled (f : RootFactorization) : RootFactorization :=
  { f with cofactor := f.cofactor.unlabelled }

/-- The roots and the degree of the cofactor do not show the label. -/
lemma RootFactorization.roots_unlabelled (f : RootFactorization) : f.unlabelled.roots = f.roots :=
  rfl

lemma RootFactorization.degree_cofactor_unlabelled (f : RootFactorization) :
    f.unlabelled.cofactor.degree = f.cofactor.degree := rfl

namespace Polynomial

variable (p : Polynomial)

/-- A count of divisions without the label of what is left. -/
def Deflation.unlabelled (d : Deflation) : Deflation := { d with rest := d.rest.unlabelled }

/-- One root is divided out, division by division. -/
lemma divideOut_unlabelled (limit : ℤ) (r : ℚ) (steps multiplicity : ℕ) :
    divideOut limit r p.unlabelled steps multiplicity
      = (divideOut limit r p steps multiplicity).map Deflation.unlabelled := by
  -- degree, remainder and limit decide how the run goes on, and none of them sees the label
  fun_induction divideOut limit r p steps multiplicity with
  | case1 p steps m hdeg => rw [divideOut, degree_unlabelled, dif_pos hdeg]; rfl
  | case2 p steps m hdeg hlimit =>
      rw [divideOut, degree_unlabelled, dif_neg hdeg, if_pos hlimit]; rfl
  | case3 p steps m hdeg hlimit division hrem =>
      rw [divideOut, degree_unlabelled, dif_neg hdeg, if_neg hlimit]
      exact if_pos hrem
  | case4 p steps m hdeg hlimit division hrem ih =>
      rw [← ih, divideOut, degree_unlabelled, dif_neg hdeg, if_neg hlimit]
      exact if_neg hrem

/-- The roots of a list are divided out one after the other. -/
lemma divideOutAll_unlabelled (limit : ℤ) (roots : List ℚ) (steps : ℕ) :
    divideOutAll limit roots p.unlabelled steps
      = (divideOutAll limit roots p steps).map RootFactorization.unlabelled := by
  induction roots generalizing p steps with
  | nil => rfl
  | cons r roots ih =>
      rw [divideOutAll, divideOutAll, divideOut_unlabelled]
      cases divideOut limit r p steps 0 with
      | error e => rfl
      | ok state =>
          change (divideOutAll limit roots state.rest.unlabelled state.steps).bind _
            = ((divideOutAll limit roots state.rest state.steps).bind _).map _
          rw [ih]
          cases divideOutAll limit roots state.rest state.steps <;> rfl

/-- The multiplicities are counted, or the count fails, whatever the label is. -/
lemma seen_rootMultiplicities (limit : ℤ) :
    seen RootFactorization.unlabelled (p.unlabelled.rootMultiplicities limit)
      = seen RootFactorization.unlabelled (p.rootMultiplicities limit) := by
  refine seen_bind_id (p.seen_rationalRoots true defaultRootCandidates) fun roots => ?_
  rw [divideOutAll_unlabelled]
  cases divideOutAll limit roots p 0 <;> rfl

end Polynomial

/-! ### Taylor expansions -/

namespace TaylorExpansion

/-- The expansion without its label. -/
def unlabelled (t : TaylorExpansion) : TaylorExpansion := { t with label := none }

variable (t : TaylorExpansion)

@[simp] lemma eval_unlabelled (x : ℚ) : t.unlabelled.eval x = t.eval x := rfl

@[simp] lemma evalShifted_unlabelled (s : ℚ) : t.unlabelled.evalShifted s = t.evalShifted s := rfl

/-- The shifted polynomial takes the label of the expansion, and is refused without coefficients. -/
lemma seen_shiftedPolynomial? :
    seen Polynomial.unlabelled t.unlabelled.shiftedPolynomial?
      = seen Polynomial.unlabelled t.shiftedPolynomial? := by
  rw [shiftedPolynomial?, shiftedPolynomial?, Polynomial.ofCoefficients?,
    Polynomial.ofCoefficients?]
  change seen _ (if t.coefficients.isEmpty = true then _ else _) = _
  split <;> rfl

/-- The polynomial is composed of the shifted one and the shift. -/
lemma seen_toPolynomial? :
    seen Polynomial.unlabelled t.unlabelled.toPolynomial?
      = seen Polynomial.unlabelled t.toPolynomial? :=
  seen_bind_ok t.seen_shiftedPolynomial? fun p q h => by
    rw [Polynomial.unlabelled_compose, Polynomial.unlabelled_compose, h]
    rfl

end TaylorExpansion

namespace Polynomial

/-- Remainder after remainder, the coefficients of an expansion do not depend on the label. -/
lemma taylorCoefficients_unlabelled (a : ℚ) (count : ℕ) (p : Polynomial) :
    taylorCoefficients a count p.unlabelled = taylorCoefficients a count p := by
  induction count generalizing p with
  | zero => rfl
  | succ count ih =>
      rw [taylorCoefficients, taylorCoefficients]
      exact congrArg _ (ih (p.syntheticDivide a).quotient)

/-- The coefficients of the expansion are numbers, and the label is passed on. -/
@[simp] lemma unlabelled_rebase (p : Polynomial) (a : ℚ) :
    (p.rebase a).unlabelled = p.unlabelled.rebase a := by
  rw [rebase, rebase, taylorCoefficients_unlabelled]
  rfl

end Polynomial

end ExactAlgebra
