import ExactAlgebra.Proofs.Labels.Function
import ExactAlgebra.Value.Coercion
import ExactAlgebra.Value.Path

/-!
Values without labels.

`Value.unlabelled` drops the labels of all polynomials in a value, those of the items of sequences
and of the parts of objects among them, and the label of an expansion.

* **Numbers.** What a value is as a number, an order, a label or a text does not change. Of an
  order that is refused, the error quotes the value (`seen_toOrder?`).
* **Sequences.** The items of the value without labels are the items without labels
  (`items?_unlabelled`), so the numbers in a sequence are the same (`toRationals?_unlabelled`).
* **Objects.** Polynomials and rational functions are read from values without labels as they are
  read from the values, up to labels (`seen_newPolynomial?`, `seen_asFunction?`, `seen_asOperand?`).
* **Fields.** The fields of an object, its label and its variable apart, lose their labels with it
  (`field?_unlabelled`).
* **Forms.** The value without labels has the form of the value (`unlabelled_ne_polynomial`,
  `unlabelled_eq_list`), so that a case analysis on forms does not tell them apart.
-/

namespace ExactAlgebra

namespace Value

mutual

/-- The value without labels. -/
def unlabelled : Value → Value
  | polynomial p => polynomial p.unlabelled
  | function r => function r.unlabelled
  | taylor t => taylor t.unlabelled
  | decomposition d => decomposition d.unlabelled
  | syntheticDivision d => syntheticDivision d.unlabelled
  | rootFactorization f => rootFactorization f.unlabelled
  | list items => list (unlabelledAll items)
  | tuple items => tuple (unlabelledAll items)
  | v => v

/-- The values of a list without labels. -/
def unlabelledAll : List Value → List Value
  | [] => []
  | v :: vs => unlabelled v :: unlabelledAll vs

end

/-- A list without labels is the list of its items without labels. -/
lemma unlabelledAll_eq_map (vs : List Value) : unlabelledAll vs = vs.map unlabelled := by
  induction vs with
  | nil => rfl
  | cons v vs ih => rw [unlabelledAll, ih, List.map_cons]

/-- Values that have no labels keep what they are in a list. -/
lemma unlabelledAll_map {α : Type} {f : α → Value} (h : ∀ a, (f a).unlabelled = f a)
    (as : List α) : unlabelledAll (as.map f) = as.map f := by
  rw [unlabelledAll_eq_map, List.map_map]
  exact List.map_congr_left fun a _ => h a

mutual

/-- A value that has lost its labels has none to lose. -/
@[simp] theorem unlabelled_unlabelled : (v : Value) → v.unlabelled.unlabelled = v.unlabelled
  | list items => congrArg list (unlabelledAll_unlabelledAll items)
  | tuple items => congrArg tuple (unlabelledAll_unlabelledAll items)
  | polynomial _ | function _ | taylor _ | decomposition _ => rfl
  | syntheticDivision _ | rootFactorization _ => rfl
  | integer _ | machineInteger _ | fraction _ | rational _ | infinite | undefined => rfl
  | float _ | machineFloat _ | boolean _ | machineBoolean _ | absent | text _ | bytes _ => rfl
  | simpleFraction _ | signReport _ | expression _ => rfl

/-- Item by item, the same holds of lists. -/
theorem unlabelledAll_unlabelledAll : (vs : List Value) →
    unlabelledAll (unlabelledAll vs) = unlabelledAll vs
  | [] => rfl
  | v :: vs => by
      rw [unlabelledAll, unlabelledAll, unlabelled_unlabelled v, unlabelledAll_unlabelledAll vs]

end

variable (v : Value)

/-! ### Forms -/

section Forms

variable {v}

/-- Only a polynomial becomes one by losing its labels, and so it is with every other form. -/
lemma unlabelled_ne_polynomial (h : ∀ p, v = polynomial p → False) (q : Polynomial)
    (hq : v.unlabelled = polynomial q) : False := by
  cases v with
  | polynomial p => exact h p rfl
  | _ => nomatch hq

/-- A value that is no function is none without labels. -/
lemma unlabelled_ne_function (h : ∀ r, v = function r → False) (s : RationalFunction)
    (hs : v.unlabelled = function s) : False := by
  cases v with
  | function r => exact h r rfl
  | _ => nomatch hs

/-- A value that is a list without labels is a list. -/
lemma unlabelled_eq_list {ws : List Value} (h : v.unlabelled = list ws) : ∃ vs, v = list vs := by
  cases v with
  | list vs => exact ⟨vs, rfl⟩
  | _ => nomatch h

/-- A text has no labels, so that it is what it was. -/
lemma unlabelled_eq_text {s : String} (h : v.unlabelled = text s) : v = text s := by
  cases v with
  | text t => exact h
  | _ => nomatch h

/-- Bytes have no label to lose. -/
lemma unlabelled_eq_bytes {s : String} (h : v.unlabelled = bytes s) : v = bytes s := by
  cases v with
  | bytes t => exact h
  | _ => nomatch h

end Forms

/-! ### Numbers -/

/-- Whether a value is a number, and which one, is decided without its labels; where it is none, the
error names its type and not its labels. -/
@[simp] lemma toRational?_unlabelled : v.unlabelled.toRational? = v.toRational? := by
  cases v <;> rfl

/-- Numbers, labels and texts are read alike. -/
@[simp] lemma toInteger?_unlabelled : v.unlabelled.toInteger? = v.toInteger? := by
  rw [toInteger?, toRational?_unlabelled, toInteger?]

@[simp] lemma integer?_unlabelled : v.unlabelled.integer? = v.integer? := by
  cases v <;> rfl

/-- What counts or selects is an integer or a truth value. -/
@[simp] lemma index?_unlabelled : v.unlabelled.index? = v.index? := by
  cases v <;> rfl

/-- A limit is a number, a truth value among them. -/
@[simp] lemma limitNumber?_unlabelled : v.unlabelled.limitNumber? = v.limitNumber? := by
  cases v <;> rfl

@[simp] lemma toLabel?_unlabelled : v.unlabelled.toLabel? = v.toLabel? := by
  cases v <;> rfl

@[simp] lemma toString?_unlabelled : v.unlabelled.toString? = v.toString? := by
  cases v <;> rfl

/-- An expression is written in symbols, and a symbol is no label. -/
@[simp] lemma toExpression?_unlabelled : v.unlabelled.toExpression? = v.toExpression? := by
  cases v <;> rfl

/-- A polynomial is true by its coefficients and a sequence by the number of its items. -/
@[simp] lemma isTrue_unlabelled : v.unlabelled.isTrue = v.isTrue := by
  cases v with
  | list items => cases items <;> rfl
  | tuple items => cases items <;> rfl
  | _ => rfl

/-- The error for a value that is no order quotes the value. -/
lemma seen_toOrder? (role : OrderRole) :
    seen id (v.unlabelled.toOrder? role) = seen id (v.toOrder? role) := by
  rw [toOrder?, toOrder?, integer?_unlabelled]
  cases v.integer? with
  | none => simp only [seen_error, Error.withoutTexts]
  | some n => rfl

/-- The error for a number that has no factorial quotes the value. -/
lemma seen_factorial? : seen id v.unlabelled.factorial? = seen id v.factorial? := by
  rw [factorial?, factorial?, toRational?_unlabelled]
  refine seen_bind_right v.toRational? fun r => ?_
  split
  · rfl
  · simp only [seen_error, Error.withoutTexts]

/-! ### Sequences -/

/-- Roots and multiplicities are numbers. -/
lemma unlabelled_ofRoots (roots : List (ℚ × ℕ)) : (ofRoots roots).unlabelled = ofRoots roots :=
  congrArg list (unlabelledAll_map (fun _ => rfl) roots)

/-- The items of a tuple lose their labels with it. A synthetic division and a factorization are
tuples of their fields. -/
lemma tupleItems?_unlabelled :
    v.unlabelled.tupleItems? = v.tupleItems?.map (List.map unlabelled) := by
  cases v with
  | tuple items => exact congrArg some (unlabelledAll_eq_map items)
  | rootFactorization f =>
      -- the list of the roots is made of numbers, so only the cofactor loses a label
      change _ = some [(ofRoots f.roots).unlabelled, polynomial f.cofactor.unlabelled]
      rw [unlabelled_ofRoots]
      rfl
  | _ => rfl

/-- The items of a sequence lose their labels with it. The items of a text are texts, and those of
bytes are numbers. -/
lemma items?_unlabelled : v.unlabelled.items? = v.items?.map (List.map unlabelled) := by
  cases v with
  | list items => exact congrArg some (unlabelledAll_eq_map items)
  -- the items are computed from the characters
  | text s => simp only [unlabelled, items?, Option.map_some, List.map_map, Function.comp_def]
  | bytes s =>
      simp only [unlabelled, items?, Option.map_some, List.map_map, Function.comp_def, natural]
  | tuple items => exact tupleItems?_unlabelled (tuple items)
  | rootFactorization f => exact tupleItems?_unlabelled (rootFactorization f)
  | _ => rfl

/-- The items of a sequence lose their labels with it. -/
lemma toItems?_unlabelled :
    v.unlabelled.toItems? = v.toItems?.map (List.map unlabelled) := by
  rw [toItems?, toItems?, items?_unlabelled]
  cases v.items? <;> rfl

/-- A function that does not see labels, on the items of a list. -/
lemma mapM_map_unlabelled {α : Type} {f : Value → Except Error α} (h : ∀ v, f v.unlabelled = f v)
    (vs : List Value) : (vs.map unlabelled).mapM f = vs.mapM f := by
  induction vs with
  | nil => rfl
  | cons v vs ih => rw [List.map_cons, List.mapM_cons, List.mapM_cons, h, ih]

/-- The numbers in a sequence are read item by item. -/
@[simp] lemma toRationals?_unlabelled : v.unlabelled.toRationals? = v.toRationals? := by
  rw [toRationals?, toRationals?, toItems?_unlabelled]
  cases v.toItems? with
  | error e => rfl
  | ok items => exact mapM_map_unlabelled toRational?_unlabelled items

/-- A sequence is a pair by its length, and its two items are read as integers. -/
@[simp] lemma toPairQuotient?_unlabelled : v.unlabelled.toPairQuotient? = v.toPairQuotient? := by
  rw [toPairQuotient?, toPairQuotient?, toItems?_unlabelled]
  cases v.toItems? with
  | error e => rfl
  | ok items =>
      -- every other length is refused before an item is read
      match items with
      | [] | [a] => rfl
      | [a, b] =>
          change (do
            let a ← a.unlabelled.toInteger?
            let b ← b.unlabelled.toInteger?
            Polynomial.ofPair? (a, b)) = _
          rw [toInteger?_unlabelled, toInteger?_unlabelled]
          rfl
      | a :: b :: c :: rest => rfl

/-! ### Objects -/

/-- What a value must be is taken from it as it is, and its labels with it; every other value is
refused in the same way. -/
lemma seen_toPolynomial? :
    seen Polynomial.unlabelled v.unlabelled.toPolynomial?
      = seen Polynomial.unlabelled v.toPolynomial? := by
  cases v <;> rfl

/-- A value is read as an object of the same kind, up to labels. -/
lemma seen_toFunction? :
    seen RationalFunction.unlabelled v.unlabelled.toFunction?
      = seen RationalFunction.unlabelled v.toFunction? := by
  cases v <;> rfl

lemma seen_toTaylor? :
    seen TaylorExpansion.unlabelled v.unlabelled.toTaylor?
      = seen TaylorExpansion.unlabelled v.toTaylor? := by
  cases v <;> rfl

lemma seen_toDecomposition? :
    seen Decomposition.unlabelled v.unlabelled.toDecomposition?
      = seen Decomposition.unlabelled v.toDecomposition? := by
  cases v <;> rfl

/-- A term of a decomposition has no label. -/
@[simp] lemma toSimpleFraction?_unlabelled :
    v.unlabelled.toSimpleFraction? = v.toSimpleFraction? := by
  cases v <;> rfl

/-- A polynomial keeps its label if it is given none; the label of any other value is the given
one. -/
lemma seen_newPolynomial? (label : Option String) :
    seen Polynomial.unlabelled (v.unlabelled.newPolynomial? label)
      = seen Polynomial.unlabelled (v.newPolynomial? label) := by
  rw [newPolynomial?.eq_def v]
  split
  · rfl
  · rfl
  · rfl
  · next hpolynomial htext hbytes =>
      -- the forms with rules of their own are excluded for the value without labels as well
      rw [newPolynomial?.eq_4 _ _ (unlabelled_ne_polynomial hpolynomial)
        (fun s hs => htext s (unlabelled_eq_text hs))
        (fun s hs => hbytes s (unlabelled_eq_bytes hs)), items?_unlabelled]
      cases v.items? with
      | none => simp only [Option.map_none, seen_error, Error.withoutTexts]
      | some items => simp only [Option.map_some, mapM_map_unlabelled toRational?_unlabelled]

/-- A polynomial from pairs of integers. -/
lemma polynomialOfPairs?_unlabelled (label : Option String) :
    v.unlabelled.polynomialOfPairs? label = v.polynomialOfPairs? label := by
  rw [polynomialOfPairs?, polynomialOfPairs?, toItems?_unlabelled]
  cases v.toItems? with
  | error e => rfl
  | ok items =>
      change ((items.map unlabelled).mapM toPairQuotient? >>= _) = items.mapM toPairQuotient? >>= _
      rw [mapM_map_unlabelled toPairQuotient?_unlabelled]

/-- A polynomial hands its label on; coefficients and numbers make a polynomial without one. -/
lemma seen_asPolynomial? :
    seen Polynomial.unlabelled v.unlabelled.asPolynomial?
      = seen Polynomial.unlabelled v.asPolynomial? := by
  cases v with
  | list items => exact seen_newPolynomial? (list items) none
  | tuple items => exact seen_newPolynomial? (tuple items) none
  | rootFactorization f => rfl
  | _ => rfl

/-- What stands for a polynomial stands for the rational function with the denominator one. -/
lemma seen_asFunction? :
    seen RationalFunction.unlabelled v.unlabelled.asFunction?
      = seen RationalFunction.unlabelled v.asFunction? := by
  -- this is the rule for every form but that of a rational function
  have key :
      seen RationalFunction.unlabelled (do .ok (.ofPolynomial (← v.unlabelled.asPolynomial?)))
        = seen RationalFunction.unlabelled (do .ok (.ofPolynomial (← v.asPolynomial?))) :=
    seen_bind_ok v.seen_asPolynomial? fun p q hpq => congrArg RationalFunction.ofPolynomial hpq
  cases v with
  | function r => rfl
  | _ => exact key

/-- The operand beside a polynomial. A number is a constant under the label of the polynomial. -/
lemma seen_asOperand? (label label' : Option String) :
    seen Polynomial.unlabelled (v.unlabelled.asOperand? label)
      = seen Polynomial.unlabelled (v.asOperand? label') := by
  -- every value but a polynomial is read as a number
  have key : seen Polynomial.unlabelled (do .ok (.const (← v.unlabelled.toRational?) label))
      = seen Polynomial.unlabelled (do .ok (.const (← v.toRational?) label')) := by
    rw [toRational?_unlabelled]
    cases v.toRational? <;> rfl
  cases v with
  | polynomial p => rfl
  | _ => exact key

/-- Numerator and denominator are read on their own, each with its label. -/
lemma seen_newFunction? (w : Value) :
    seen RationalFunction.unlabelled (newFunction? v.unlabelled w.unlabelled)
      = seen RationalFunction.unlabelled (newFunction? v w) :=
  seen_bind v.seen_asPolynomial? fun _ _ hn => seen_bind w.seen_asPolynomial? fun _ _ hd =>
    RationalFunction.seen_ofPolynomials? hn hd

/-! ### Fields -/

/-- Numbers have no labels, and nor do tuples of them. -/
lemma unlabelled_rationals (rs : List ℚ) : (rationals rs).unlabelled = rationals rs :=
  congrArg tuple (unlabelledAll_map (fun _ => rfl) rs)

/-- Lists of numbers have no labels. -/
lemma unlabelled_naturals (ns : List ℕ) : (naturals ns).unlabelled = naturals ns :=
  congrArg tuple (unlabelledAll_map (fun _ => rfl) ns)

/-- The fields of a number are numbers. -/
lemma numberField?_unlabelled (r : ℚ) (name : String) :
    (numberField? r name).map unlabelled = numberField? r name := by
  unfold numberField?
  split <;> rfl

/-- The fields of a computed rational are numbers, and whether it is zero. -/
lemma rationalField?_unlabelled (r : ℚ) (name : String) :
    (rationalField? r name).map unlabelled = rationalField? r name := by
  unfold rationalField?
  split
  iterate 3 rfl
  exact numberField?_unlabelled r name

section Fields

variable {name : String} (hlabel : name ≠ "label") (hvariable : name ≠ "variable")

include hlabel hvariable

/-- The fields of a polynomial other than its label and its variable are read off the
coefficients. -/
lemma polynomialField?_unlabelled (p : Polynomial) :
    polynomialField? p.unlabelled name = (polynomialField? p name).map unlabelled := by
  unfold polynomialField?
  split
  · exact congrArg some (unlabelled_rationals p.coefficients).symm
  · exact absurd rfl hlabel
  · exact absurd rfl hvariable
  all_goals rfl

/-- The fields other than the label and the variable. -/
lemma field?_unlabelled : v.unlabelled.field? name = (v.field? name).map unlabelled := by
  cases v with
  | polynomial p => exact polynomialField?_unlabelled hlabel hvariable p
  | function r =>
      simp only [unlabelled, field?, functionField?]
      split <;> rfl
  -- an expansion has a label, which is the field that is set aside
  | taylor t =>
      simp only [unlabelled, field?]
      split
      · rfl
      · exact congrArg some (unlabelled_rationals t.coefficients).symm
      · exact absurd rfl hlabel
      · rfl
  -- the terms have no labels, only the quotient has
  | decomposition d =>
      simp only [unlabelled, field?]
      split
      · rfl
      · exact congrArg (fun items => some (tuple items))
          (unlabelledAll_map (f := simpleFraction) (fun _ => rfl) d.terms).symm
      · rfl
  | syntheticDivision d =>
      simp only [unlabelled, field?]
      split <;> rfl
  | rootFactorization f =>
      simp only [unlabelled, field?]
      split
      · exact congrArg some (unlabelled_ofRoots f.roots).symm
      all_goals rfl
  | signReport r =>
      simp only [unlabelled, field?]
      split
      · rfl
      · rfl
      · exact congrArg some (unlabelled_naturals r.possiblePositive).symm
      · exact congrArg some (unlabelled_naturals r.possibleNegative).symm
      · rfl
  | simpleFraction t =>
      simp only [unlabelled, field?]
      split <;> rfl
  -- the fields of numbers are numbers
  | rational r => exact (rationalField?_unlabelled r name).symm
  | integer n => exact (numberField?_unlabelled n name).symm
  | machineInteger n => exact (numberField?_unlabelled n name).symm
  | fraction r => exact (numberField?_unlabelled r name).symm
  | boolean b => exact (numberField?_unlabelled _ name).symm
  | _ => rfl

end Fields

end Value

end ExactAlgebra
