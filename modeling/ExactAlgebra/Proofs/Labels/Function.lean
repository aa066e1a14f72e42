import ExactAlgebra.PartialFractions.Decompose
import ExactAlgebra.Proofs.Labels.Polynomial

/-!
Rational functions and their decompositions without labels.

`RationalFunction.unlabelled` drops the labels of numerator and denominator, and
`Decomposition.unlabelled` that of the quotient.

* **Operations.** The operations on rational functions commute with dropping labels, the canonical
  form and the derivatives among them (`unlabelled_simplify`, `unlabelled_derivative`). Where an
  operation may be refused, it is seen alike with and without labels: `seen_div?`, `seen_pow?`,
  `seen_eval?`, and so on.
* **Partial fractions.** The residues of a root are computed by one derivative after the other
  (`seen_taylorCoefficients?`). A decomposition has the same terms, or fails with the same error,
  whatever the labels are (`seen_partialFractions`), and so has the sum of its terms
  (`Decomposition.unlabelled_toRationalFunction`).
-/

namespace ExactAlgebra

namespace RationalFunction

/-- The rational function without the labels of its polynomials. -/
def unlabelled (r : RationalFunction) : RationalFunction :=
  ⟨r.numerator.unlabelled, r.denominator.unlabelled, r.denominator_ne_zero⟩

variable (r s : RationalFunction)

/-! ### Operations -/

@[simp] lemma numerator_unlabelled : r.unlabelled.numerator = r.numerator.unlabelled := rfl

@[simp] lemma denominator_unlabelled : r.unlabelled.denominator = r.denominator.unlabelled := rfl

/-- A function is its numerator and its denominator. -/
lemma ext_parts {r s : RationalFunction} (hn : r.numerator = s.numerator)
    (hd : r.denominator = s.denominator) : r = s := by
  obtain ⟨n, d, _⟩ := r
  obtain ⟨n', d', _⟩ := s
  obtain rfl : n = n' := hn
  obtain rfl : d = d' := hd
  rfl

/-- Functions differ in labels only when their numerators and their denominators do. -/
lemma unlabelled_eq_iff {r s : RationalFunction} :
    r.unlabelled = s.unlabelled ↔
      r.numerator.unlabelled = s.numerator.unlabelled
        ∧ r.denominator.unlabelled = s.denominator.unlabelled :=
  ⟨fun h => ⟨congrArg numerator h, congrArg denominator h⟩, fun h => ext_parts h.1 h.2⟩

@[simp] lemma unlabelled_unlabelled : r.unlabelled.unlabelled = r.unlabelled := rfl

@[simp] lemma unlabelled_add : (r + s).unlabelled = r.unlabelled + s.unlabelled := rfl

@[simp] lemma unlabelled_sub : (r - s).unlabelled = r.unlabelled - s.unlabelled := rfl

@[simp] lemma unlabelled_mul : (r * s).unlabelled = r.unlabelled * s.unlabelled := rfl

@[simp] lemma unlabelled_neg : (-r).unlabelled = -r.unlabelled := rfl

/-- Numerator and denominator are raised apart. -/
@[simp] lemma unlabelled_pow (n : ℕ) : (r ^ n).unlabelled = r.unlabelled ^ n :=
  ext_parts (r.numerator.unlabelled_pow n) (r.denominator.unlabelled_pow n)

/-- Equality is that of the cross products. -/
@[simp] lemma unlabelled_beq : (r.unlabelled == s.unlabelled) = (r == s) := rfl

/-- The canonical form is divided by a common factor that does not depend on labels. -/
@[simp] lemma unlabelled_simplify : r.simplify.unlabelled = r.unlabelled.simplify := by
  have hfactor : r.unlabelled.commonFactor = r.commonFactor.unlabelled :=
    (Polynomial.unlabelled_gcd _ _).symm
  apply ext_parts <;>
    simp only [simplify, hfactor, numerator_unlabelled, denominator_unlabelled,
      ← Polynomial.unlabelled_div, Polynomial.leadingCoefficient_unlabelled,
      ← Polynomial.unlabelled_scale]

/-- The derivative is the canonical form of the quotient rule. -/
lemma unlabelled_derivativeOnce : r.derivativeOnce.unlabelled = r.unlabelled.derivativeOnce :=
  unlabelled_simplify _

/-- The derivatives, one after the other. -/
@[simp] lemma unlabelled_derivative (n : ℕ) :
    (r.derivative n).unlabelled = r.unlabelled.derivative n := by
  induction n with
  | zero => rfl
  | succ n ih => rw [derivative, unlabelled_derivativeOnce, ih, derivative]

/-- A quotient of polynomials is refused when the denominator is zero, whatever its label is. -/
lemma seen_ofPolynomials? {n n' d d' : Polynomial} (hn : n.unlabelled = n'.unlabelled)
    (hd : d.unlabelled = d'.unlabelled) :
    seen unlabelled (ofPolynomials? n d) = seen unlabelled (ofPolynomials? n' d') := by
  have hzero : d.isZero = d'.isZero := by
    rw [← d.isZero_unlabelled, hd, Polynomial.isZero_unlabelled]
  by_cases h : d.isZero = false
  · rw [ofPolynomials?, ofPolynomials?, dif_pos h, dif_pos (hzero ▸ h)]
    exact congrArg Except.ok (unlabelled_eq_iff.mpr ⟨hn, hd⟩)
  · rw [ofPolynomials?, ofPolynomials?, dif_neg h, dif_neg (hzero ▸ h)]

/-- A division is refused when the divisor is zero, and labels do not make it so. -/
lemma seen_div? :
    seen unlabelled (r.unlabelled.div? s.unlabelled) = seen unlabelled (r.div? s) := by
  change seen unlabelled (if h : s.numerator.isZero = false then _ else _) = _
  rw [div?]
  split <;> rfl

/-- A reciprocal is refused in the same way. -/
lemma seen_reciprocal? :
    seen unlabelled r.unlabelled.reciprocal? = seen unlabelled r.reciprocal? := by
  change seen unlabelled (if h : r.numerator.isZero = false then _ else _) = _
  rw [reciprocal?]
  split <;> rfl

/-- Negative powers are those of the reciprocal, and are refused with it. -/
lemma seen_pow? (n : ℤ) : seen unlabelled (r.unlabelled.pow? n) = seen unlabelled (r.pow? n) := by
  rw [pow?, pow?]
  split
  · exact seen_bind_ok r.seen_reciprocal? fun s t h => by rw [unlabelled_pow, unlabelled_pow, h]
  · simp only [seen_ok, unlabelled_pow, unlabelled_unlabelled]

/-- The error at a pole quotes the function, and with it the labels. -/
lemma seen_eval? (x : ℚ) : seen id (r.unlabelled.eval? x) = seen id (r.eval? x) := by
  simp only [eval?, numerator_unlabelled, denominator_unlabelled, Polynomial.eval_unlabelled]
  by_cases hx : r.denominator.eval x = 0
  · simp only [hx, ↓reduceIte, seen_error, Error.withoutTexts]
  · simp only [hx, ↓reduceIte]

/-- The poles are the rational roots of the denominator. -/
lemma seen_poles? : seen id r.unlabelled.poles? = seen id r.poles? :=
  r.denominator.seen_rationalRoots true Polynomial.defaultRootCandidates

/-- The zeros are the rational roots of the numerator. -/
lemma seen_zeros? : seen id r.unlabelled.zeros? = seen id r.zeros? :=
  r.numerator.seen_rationalRoots true Polynomial.defaultRootCandidates

end RationalFunction

/-! ### Partial fractions -/

/-- A decomposition without the label of its quotient. -/
def Decomposition.unlabelled (d : Decomposition) : Decomposition :=
  { d with quotient := d.quotient.unlabelled }

/-- One factor is divided out after the other. -/
lemma Polynomial.unlabelled_divideOutTimes (p : Polynomial) (r : ℚ) (count : ℕ) :
    (p.divideOutTimes r count).unlabelled = p.unlabelled.divideOutTimes r count := by
  induction count generalizing p with
  | zero => rfl
  | succ count ih => exact ih (p.syntheticDivide r).quotient

namespace RationalFunction

/-- The values of one derivative after the other. -/
lemma seen_taylorCoefficients? (x : ℚ) (count k : ℕ) {g g' : RationalFunction}
    (h : g.unlabelled = g'.unlabelled) :
    seen id (taylorCoefficients? x count k g) = seen id (taylorCoefficients? x count k g') := by
  have heval : seen id (g.eval? x) = seen id (g'.eval? x) :=
    seen_congr (f := fun g : RationalFunction => g.eval? x) (fun g => g.seen_eval? x) h
  match count with
  | 0 => rfl
  | 1 => exact seen_bind_id heval fun u => rfl
  -- the last derivative is not taken, so the step begins with two coefficients to go
  | count + 2 =>
      refine seen_bind_id heval fun u => ?_
      have hderivative : (g.derivative 1).unlabelled = (g'.derivative 1).unlabelled := by
        rw [unlabelled_derivative, unlabelled_derivative, h]
      exact seen_bind_id (seen_taylorCoefficients? x (count + 1) (k + 1) hderivative) fun cs => rfl

section TwoRuns

variable {n n' d d' : Polynomial} (hn : n.unlabelled = n'.unlabelled)
  (hd : d.unlabelled = d'.unlabelled)

include hn hd

/-- The residues at one root, for numerators and denominators that differ in labels. -/
lemma seen_termsAt? (x : ℚ) (m : ℕ) :
    seen id (termsAt? n d x m) = seen id (termsAt? n' d' x m) := by
  have hcofactor : (d.divideOutTimes x m).unlabelled = (d'.divideOutTimes x m).unlabelled := by
    rw [Polynomial.unlabelled_divideOutTimes, Polynomial.unlabelled_divideOutTimes, hd]
  have hresidues : seen id (residues? n d x m) = seen id (residues? n' d' x m) :=
    seen_bind (seen_ofPolynomials? hn hcofactor) fun g g' hg => seen_taylorCoefficients? x m 0 hg
  exact seen_bind_id hresidues fun cs => rfl

/-- The terms of all roots, one root after the other. -/
lemma seen_terms? (roots : List (ℚ × ℕ)) :
    seen id (roots.mapM fun root => termsAt? n d root.1 root.2)
      = seen id (roots.mapM fun root => termsAt? n' d' root.1 root.2) := by
  induction roots with
  | nil => rfl
  | cons root roots ih =>
      rw [List.mapM_cons, List.mapM_cons]
      exact seen_bind_id (seen_termsAt? hn hd root.1 root.2) fun ts =>
        seen_bind_id ih fun rest => rfl

end TwoRuns

variable (r : RationalFunction)

/-- The polynomial part and the numerator of what is left. -/
lemma unlabelled_splitProper (label label' : Option String) :
    (r.unlabelled.splitProper label).1.unlabelled = (r.splitProper label').1.unlabelled
      ∧ (r.unlabelled.splitProper label).2.unlabelled = (r.splitProper label').2.unlabelled := by
  have hproper : r.unlabelled.isProper = r.isProper := rfl
  rw [splitProper, splitProper, hproper]
  by_cases h : r.isProper = true
  · simp only [h, ↓reduceIte, Polynomial.unlabelled_zero, numerator_unlabelled,
      Polynomial.unlabelled_unlabelled, and_self]
  · simp only [h, Bool.false_eq_true, ↓reduceIte, Polynomial.unlabelled_withLabel,
      Polynomial.unlabelled_div, Polynomial.unlabelled_mod, numerator_unlabelled,
      denominator_unlabelled, Polynomial.unlabelled_unlabelled, and_self]

/-- A decomposition has the same quotient and terms, or fails alike, whatever the labels are. The
label of its quotient, and the texts in the error for a factor without roots, are all that depends
on them. -/
lemma seen_partialFractions (limit : ℤ) :
    seen Decomposition.unlabelled (r.unlabelled.partialFractions limit)
      = seen Decomposition.unlabelled (r.partialFractions limit) := by
  rw [partialFractions, partialFractions, ← r.unlabelled_simplify]
  have hsplit := r.simplify.unlabelled_splitProper r.unlabelled.quotientLabel r.quotientLabel
  generalize r.simplify.splitProper r.quotientLabel = split at hsplit ⊢
  generalize r.simplify.unlabelled.splitProper r.unlabelled.quotientLabel = split' at hsplit ⊢
  obtain ⟨q, n⟩ := split
  obtain ⟨q', n'⟩ := split'
  obtain ⟨hq, hn⟩ : q'.unlabelled = q.unlabelled ∧ n'.unlabelled = n.unlabelled := hsplit
  have hzero : n'.isZero = n.isZero := by
    rw [← n'.isZero_unlabelled, hn, Polynomial.isZero_unlabelled]
  simp only [denominator_unlabelled, Polynomial.degree_unlabelled, hzero]
  -- no terms
  by_cases hpolynomial : r.simplify.denominator.degree < 1 ∨ n.isZero = true
  · simp only [hpolynomial, ↓reduceIte, seen_ok, Decomposition.unlabelled, hq]
  simp only [hpolynomial, ↓reduceIte]
  refine seen_bind (r.simplify.denominator.seen_rootMultiplicities limit) fun f f' hf => ?_
  have hroots := eq_of_view RootFactorization.roots_unlabelled hf
  have hcofactor := eq_of_view (F := fun f : RootFactorization => f.cofactor.degree)
    RootFactorization.degree_cofactor_unlabelled hf
  rw [hroots, hcofactor]
  -- a factor without rational roots is left: the error quotes it
  by_cases hfactor : 0 < f'.cofactor.degree
  · simp only [hfactor, ↓reduceIte, seen_error, Error.withoutTexts]
  simp only [hfactor, ↓reduceIte]
  have hterms := seen_terms? hn r.simplify.denominator.unlabelled_unlabelled f'.roots
  refine seen_bind_id hterms fun ts => ?_
  rw [seen_ok, seen_ok, Decomposition.unlabelled, Decomposition.unlabelled, hq]

end RationalFunction

/-- A term has the same numerator and the same roots of the denominator under every label. -/
lemma SimpleFraction.unlabelled_toRationalFunction (t : SimpleFraction) (label : Option String) :
    (t.toRationalFunction label).unlabelled = t.toRationalFunction none :=
  RationalFunction.ext_parts rfl (Polynomial.unlabelled_ofRoots _ label)

namespace Decomposition

/-- The sum of the terms, one after the other. -/
lemma unlabelled_foldl_add (terms : List SimpleFraction) (label : Option String)
    (r : RationalFunction) :
    (terms.foldl (fun total t => total + t.toRationalFunction label) r).unlabelled
      = terms.foldl (fun total t => total + t.toRationalFunction none) r.unlabelled := by
  induction terms generalizing r with
  | nil => rfl
  | cons t terms ih =>
      rw [List.foldl_cons, ih, RationalFunction.unlabelled_add,
        SimpleFraction.unlabelled_toRationalFunction, List.foldl_cons]

/-- The function that a decomposition stands for has the labels of the quotient, and no others. -/
lemma unlabelled_toRationalFunction (d : Decomposition) :
    d.toRationalFunction.unlabelled = d.unlabelled.toRationalFunction := by
  rw [toRationalFunction, RationalFunction.unlabelled_simplify, unlabelled_foldl_add]
  rfl

end Decomposition

end ExactAlgebra
