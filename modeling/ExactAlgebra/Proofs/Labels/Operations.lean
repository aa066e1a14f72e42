import ExactAlgebra.Calculator.Session
import ExactAlgebra.Proofs.Labels.Arguments
import ExactAlgebra.Proofs.Labels.Equality

/-!
Labels are for display only.

Every list of operations is gone through in turn: an operation does not see the labels of its
arguments, unless it answers with a label or a text (`displayOperations`).

Main statement: `labels_display_only`.
-/

namespace ExactAlgebra

namespace Calculator

open Value Arguments IgnoresLabels

/-- The operations that answer with a label, with a text in which the variable is written, or with
what is read back from an expression in the variable. -/
def displayOperations : List String :=
  ["poly.label", "poly.variable", "poly.format_polynomial", "poly.expr_round_trip",
    "term.format_term", "str", "repr"]

/-! ### Numbers and operators -/

/-- Integers have no labels. -/
lemma integers?_unlabelled (vs : List Value) :
    integers? (vs.map Value.unlabelled) = integers? vs :=
  mapM_map_unlabelled toInteger?_unlabelled vs

/-- The limit of the search is an argument too, and the error that reports it quotes it. -/
lemma seen_divisorsOf? (a : Arguments) :
    seen id (divisorsOf? a.unlabelled) = seen id (divisorsOf? a) := by
  rw [divisorsOf?, divisorsOf?, Arguments.integer?_unlabelled]
  exact seen_bind_right (a.integer? 0) fun n => a.seen_withinLimit 1 _ _ _ fun _ => rfl

/-- The operations on numbers read their arguments as numbers. -/
lemma numberOperations_ignoreLabels : ∀ entry ∈ numberOperations, IgnoresLabels entry.2 := by
  simp only [numberOperations, List.forall_mem_cons]
  -- the operations of the table that need more than their general kind are left as goals
  refine ⟨fun a => a.seen_at? 0, of_rational 0 _, of_rational 0 _, of_rational 0 _, of_rational 0 _,
    of_rational 0 _, of_integer 0 _, of_eq fun a => ?_, of_eq fun a => ?_, of_eq fun a => ?_,
    of_eq fun a => ?_, fun a => ?_, of_integer 0 _, of_unary fun v => ?_, List.forall_mem_nil _⟩
  · -- gcd
    change (do .ok (natural (Integer.gcdAll (← integers? (a.positional.map Value.unlabelled))))) = _
    rw [integers?_unlabelled]
  · -- lcm
    change (do .ok (natural (Integer.lcmAll (← integers? (a.positional.map Value.unlabelled))))) = _
    rw [integers?_unlabelled]
  · -- ext_gcd
    simp only [bezout?, Arguments.integer?_unlabelled]
  · -- mod_inverse
    simp only [modularInverse?, Arguments.integer?_unlabelled]
  · -- divisors
    exact seen_bind_id (seen_divisorsOf? a) fun ns => rfl
  · -- factorial
    exact seen_bind_id v.seen_factorial? fun n => rfl

/-- The operators, comparison and hashing; the two operations that print an object are set aside. -/
lemma operatorOperations_ignoreLabels : ∀ entry ∈ operatorOperations,
    entry.1 ∉ displayOperations → IgnoresLabels entry.2 := by
  simp only [operatorOperations, List.forall_mem_cons]
  refine ⟨fun _ => of_binary addition_ignoresLabels.apply,
    fun _ => of_binary subtraction_ignoresLabels.apply,
    fun _ => of_binary multiplication_ignoresLabels.apply,
    fun _ => of_binary division_ignoresLabels.apply,
    fun _ => of_binary seen_floorDiv, fun _ => of_binary seen_mod, fun _ => of_binary seen_divMod,
    fun _ => of_binary seen_pow, fun _ => of_binary seen_call, fun _ => of_binary fun v w => ?_,
    fun _ => of_binary fun v w => ?_, fun _ => of_unary seen_neg, fun _ => of_unary seen_pos,
    fun _ => of_unary fun v => ?_, fun h => absurd (by decide) h, fun h => absurd (by decide) h,
    fun _ => of_eq fun a => ?_, fun _ => of_binary fun v w => ?_, List.forall_mem_nil _⟩
  · -- eq
    rw [same_unlabelled]
  · -- ne
    rw [same_unlabelled]
  · -- bool
    rw [isTrue_unlabelled]
  · -- distinct
    change (do .ok (natural (← distinct? (a.positional.map Value.unlabelled)))) = _
    rw [distinct?_unlabelled]
  · -- same_hash
    rw [sameHash?_unlabelled]

/-! ### Polynomials -/

/-- The order is an integer, the coefficient a number, and the label is given apart. -/
lemma seen_monomial? (a : Arguments) :
    seen Polynomial.unlabelled (monomial? a.unlabelled)
      = seen Polynomial.unlabelled (monomial? a) :=
  seen_at?_bind fun v => seen_bind_id (v.seen_toOrder? .monomial) fun n => by
    rw [optional_unlabelled a 1 _ rfl, toRational?_unlabelled, label?_unlabelled]

/-- Roots are numbers, so that the label is the given one. -/
lemma ofRoots?_unlabelled (a : Arguments) : ofRoots? a.unlabelled = ofRoots? a :=
  at?_bind_unlabelled fun v => by rw [toRationals?_unlabelled, label?_unlabelled]

/-- The operations that make polynomials. -/
lemma polynomialConstructors_ignoreLabels :
    ∀ entry ∈ polynomialConstructors, IgnoresLabels entry.2 := by
  simp only [polynomialConstructors, List.forall_mem_cons]
  refine ⟨fun a => seen_polynomial (seen_at?_bind fun v => ?_), of_eq fun a => ?_,
    of_eq fun a => ?_, fun a => seen_polynomial (seen_monomial? a), of_eq fun a => ?_,
    of_eq fun a => ?_, of_eq fun a => ?_, of_eq fun a => ?_, List.forall_mem_nil _⟩
  · -- poly.new
    rw [label?_unlabelled]
    exact seen_bind_right (a.label? 1) v.seen_newPolynomial?
  · -- poly.zero
    rw [label?_unlabelled]
  · -- poly.one
    rw [label?_unlabelled]
  · -- poly.from_roots
    rw [ofRoots?_unlabelled]
  · -- poly.from_pairs
    refine congrArg polynomialResult (at?_bind_unlabelled fun v => ?_)
    simp only [label?_unlabelled, polynomialOfPairs?_unlabelled]
  · -- poly.from_string
    refine congrArg polynomialResult (at?_bind_unlabelled fun v => ?_)
    rw [toString?_unlabelled]
  · -- poly.extract_coefficients
    exact at?_bind_unlabelled fun v => by rw [toString?_unlabelled]

/-- The fields of a polynomial, its label and its variable set aside. -/
lemma polynomialFields_ignoreLabels : ∀ entry ∈ polynomialFields,
    entry.1 ∉ displayOperations → IgnoresLabels entry.2 := by
  simp only [polynomialFields, List.forall_mem_cons]
  exact ⟨fun _ => of_field (by decide) (by decide), fun h => absurd (by decide) h,
    fun h => absurd (by decide) h, fun _ => of_field (by decide) (by decide),
    fun _ => of_field (by decide) (by decide), fun _ => of_field (by decide) (by decide),
    fun _ => of_field (by decide) (by decide), List.forall_mem_nil _⟩

/-- The constant of integration is a number. -/
lemma seen_integral? (a : Arguments) :
    seen Polynomial.unlabelled (integral? a.unlabelled)
      = seen Polynomial.unlabelled (integral? a) :=
  seen_bind (a.seen_polynomial? 0) fun p q hpq => by
    rw [optional_unlabelled a 1 _ rfl, toRational?_unlabelled]
    refine seen_bind_right _ fun c => ?_
    rw [seen_ok, seen_ok, Polynomial.unlabelled_integral, Polynomial.unlabelled_integral, hpq]

/-- A coefficient is selected by its order. -/
lemma coefficient_ignoresLabels : IgnoresLabels (fun a => do
    let p ← a.polynomial? 0
    .ok (rational (p.coefficient (← (← a.at? 1).toOrder? .coefficient)))) := fun a =>
  seen_bind (a.seen_polynomial? 0) fun p q hpq =>
    seen_at?_bind fun v => seen_bind_id (v.seen_toOrder? .coefficient) fun n => by
      rw [eq_of_view (F := fun p : Polynomial => p.coefficient n)
        (fun p => p.coefficient_unlabelled n) hpq]

/-- The operations that begin with a polynomial; printing it is set aside. -/
lemma polynomialMethods_ignoreLabels : ∀ entry ∈ polynomialMethods,
    entry.1 ∉ displayOperations → IgnoresLabels entry.2 := by
  simp only [polynomialMethods, List.forall_mem_cons]
  refine ⟨fun _ => coefficient_ignoresLabels, fun _ => of_unary fun v => ?_,
    fun _ => of_atPoint fun p c => rfl, fun _ => of_polynomialMap Polynomial.unlabelled_monic,
    fun _ => of_polynomialMap Polynomial.unlabelled_primitive, fun _ => of_evaluation,
    fun _ => of_atPoint fun p x => rfl, fun _ => of_differentiation,
    fun _ a => seen_polynomial (seen_integral? a), fun _ a => seen_polynomial ?_, fun _ a => ?_,
    fun _ a => seen_polynomial ?_, fun h => absurd (by decide) h, fun _ a => seen_polynomial ?_,
    List.forall_mem_nil _⟩
  · -- poly.to_pairs
    rw [pairs?_unlabelled]
  · -- poly.compose
    exact seen_bind (a.seen_polynomial? 0) fun p q hpq => seen_at?_bind fun w =>
      seen_congr₂ (fun p w => w.seen_compose? p) hpq w.unlabelled_unlabelled
  · -- poly.divmod
    exact seen_bind (a.seen_polynomial? 0) fun p q hpq => seen_at?_bind fun w =>
      seen_congr₂ seen_divMod (congrArg polynomial hpq) w.unlabelled_unlabelled
  · -- poly.gcd
    exact seen_bind (a.seen_polynomial? 0) fun p q hpq => seen_at?_bind fun w =>
      w.seen_polynomialGcd? hpq
  · -- polynomial_gcd
    exact seen_polynomialGcdAll? a.positional

/-! ### Roots, expansions and expressions -/

/-- The search is over the polynomial up to its label, under a limit that is an argument. -/
lemma seen_rationalRoots? (a : Arguments) :
    seen id (rationalRoots? a.unlabelled) = seen id (rationalRoots? a) :=
  seen_at?_bind_bind (fun v => v.seen_rootSubject? .rootsOfZero) fun p q hpq => by
    rw [optional_unlabelled a 1 _ rfl, isTrue_unlabelled]
    generalize (a.optional 1 "clear_denominators" (.boolean true)).isTrue = clear
    exact a.seen_withinLimit 2 _ _ _ fun limit =>
      seen_congr (f := fun p : Polynomial => p.rationalRoots clear limit)
        (fun p => p.seen_rationalRoots clear limit) hpq

/-- The count is over the polynomial up to its label, under a limit that is an argument. -/
lemma seen_rootMultiplicities? (a : Arguments) :
    seen RootFactorization.unlabelled (rootMultiplicities? a.unlabelled)
      = seen RootFactorization.unlabelled (rootMultiplicities? a) :=
  seen_at?_bind_bind (fun v => v.seen_rootSubject? .rootsOfZero) fun _ _ hpq =>
    a.seen_withinLimit 1 _ _ _ fun limit =>
      seen_congr (f := fun p : Polynomial => p.rootMultiplicities limit)
        (fun p => p.seen_rootMultiplicities limit) hpq

/-- Roots, signs of coefficients, synthetic division and expansions. -/
lemma rootOperations_ignoreLabels : ∀ entry ∈ rootOperations, IgnoresLabels entry.2 := by
  simp only [rootOperations, List.forall_mem_cons]
  refine ⟨fun a => ?_, fun a => ?_, of_unary fun v => ?_, of_unary fun v => ?_,
    fun a => ?_, of_aboutPoint fun v c => ?_, of_aboutPoint fun v c => ?_, of_evaluation,
    fun a => ?_, fun a => seen_polynomial ?_, fun a => seen_polynomial ?_, List.forall_mem_nil _⟩
  · -- rational_roots
    exact seen_bind_id (seen_rationalRoots? a) fun rs => rfl
  · -- root_multiplicities
    exact seen_bind_ok (seen_rootMultiplicities? a) fun f g h => congrArg rootFactorization h
  · -- sign_changes
    rw [signChanges?_unlabelled]
  · -- descartes_rule_of_signs
    exact seen_bind_id v.seen_ruleOfSigns? fun r => rfl
  · -- cauchy_bound
    exact seen_at?_bind_bind (fun v => v.seen_rootSubject? .boundOfZero) fun p q hpq => by
      rw [eq_of_view Polynomial.cauchyBound_unlabelled hpq]
  · -- synthetic_divide
    exact seen_bind_ok (v.seen_syntheticDivision? c) fun d e h => congrArg syntheticDivision h
  · -- rebase
    exact seen_bind_ok (v.seen_rebased? c) fun t u h => congrArg taylor h
  · -- taylor.evaluate_shifted
    refine seen_bind (a.seen_taylor? 0) fun t u h => ?_
    rw [rational?_unlabelled]
    refine seen_bind_right (a.rational? 1) fun x => ?_
    rw [eq_of_view (F := fun t : TaylorExpansion => t.evalShifted x)
      (fun t => t.evalShifted_unlabelled x) h]
  · -- taylor.shifted_polynomial
    exact seen_bind (a.seen_taylor? 0) fun t u h =>
      seen_congr TaylorExpansion.seen_shiftedPolynomial? h
  · -- taylor.to_polynomial
    exact seen_bind (a.seen_taylor? 0) fun t u h =>
      seen_congr TaylorExpansion.seen_toPolynomial? h

/-- Reading and writing expressions; the name of the symbol is given or is set aside. -/
lemma expressionOperations_ignoreLabels : ∀ entry ∈ expressionOperations,
    entry.1 ∉ displayOperations → IgnoresLabels entry.2 := by
  simp only [expressionOperations, List.forall_mem_cons]
  refine ⟨fun _ => of_eq fun a => ?_, fun _ => of_expressionAt, fun _ => of_expressionAt,
    fun h => absurd (by decide) h, List.forall_mem_nil _⟩
  refine congrArg polynomialResult (at?_bind_unlabelled fun v => ?_)
  rw [toExpression?_unlabelled, symbol?_unlabelled]

/-! ### Rational functions and partial fractions -/

/-- The decomposition is that of the function up to its labels. -/
lemma seen_partialFractions? (a : Arguments) :
    seen Decomposition.unlabelled (partialFractions? a.unlabelled)
      = seen Decomposition.unlabelled (partialFractions? a) :=
  seen_bind (a.seen_function? 0) fun _ _ hrs =>
    a.seen_withinLimit 1 _ _ _ fun limit =>
      seen_congr (f := fun r : RationalFunction => r.partialFractions limit)
        (fun r => r.seen_partialFractions limit) hrs

/-- Pairs of integers have no labels, so that the label is the given one. -/
lemma functionOfPairs?_unlabelled (a : Arguments) :
    functionOfPairs? a.unlabelled = functionOfPairs? a := by
  rw [functionOfPairs?, functionOfPairs?, label?_unlabelled]
  refine bind_congr fun label => at?_bind_unlabelled fun v => ?_
  rw [polynomialOfPairs?_unlabelled]
  refine bind_congr fun n => at?_bind_unlabelled fun w => ?_
  rw [polynomialOfPairs?_unlabelled]

/-- The operations on rational functions. -/
lemma functionOperations_ignoreLabels : ∀ entry ∈ functionOperations, IgnoresLabels entry.2 := by
  simp only [functionOperations, List.forall_mem_cons]
  refine ⟨fun a => seen_function (seen_at?_bind fun v => ?_), of_eq fun a => ?_, of_eq fun a => ?_,
    of_field (by decide) (by decide), of_field (by decide) (by decide),
    of_field (by decide) (by decide), of_field (by decide) (by decide), of_unary fun v => ?_,
    fun a => seen_function ?_, of_unary seen_simplified?, of_evaluation, of_differentiation,
    fun a => ?_, fun a => ?_, List.forall_mem_nil _⟩
  · -- rf.new
    rw [optional_unlabelled a 1 _ rfl]
    exact v.seen_newFunction? _
  · -- rf.from_string
    refine congrArg functionResult (at?_bind_unlabelled fun v => ?_)
    rw [toString?_unlabelled]
  · -- rf.from_pairs
    rw [functionOfPairs?_unlabelled]
  · -- rf.to_pairs
    rw [pairs?_unlabelled]
  · -- rf.reciprocal
    exact seen_bind (a.seen_function? 0) fun r s h =>
      seen_congr RationalFunction.seen_reciprocal? h
  · -- rf.poles
    exact seen_bind_id (seen_bind (a.seen_function? 0) fun r s h =>
      seen_congr RationalFunction.seen_poles? h) fun rs => rfl
  · -- rf.zeros
    exact seen_bind_id (seen_bind (a.seen_function? 0) fun r s h =>
      seen_congr RationalFunction.seen_zeros? h) fun rs => rfl

/-- The operations on partial fractions; printing them is set aside. -/
lemma decompositionOperations_ignoreLabels : ∀ entry ∈ decompositionOperations,
    entry.1 ∉ displayOperations → IgnoresLabels entry.2 := by
  simp only [decompositionOperations, List.forall_mem_cons]
  refine ⟨fun _ a => ?_, fun h => absurd (by decide) h, fun _ => of_eq fun a => ?_,
    fun _ => of_evaluation, fun _ a => seen_function ?_, fun _ => of_evaluation,
    List.forall_mem_nil _⟩
  · -- partial_fractions
    exact seen_bind_ok (seen_partialFractions? a) fun d e h => congrArg decomposition h
  · -- term.as_rational_function
    rw [simpleFraction?_unlabelled, label?_unlabelled]
  · -- pf.to_rational_function
    refine seen_bind_ok (a.seen_decomposition? 0) fun d e h => ?_
    rw [Decomposition.unlabelled_toRationalFunction, h,
      ← Decomposition.unlabelled_toRationalFunction]

/-! ### The operations together -/

/-- **Labels are for display only.** Every operation but those that answer with a label or a text
gives, on arguments that differ in labels only, values that differ in labels only, or fails on both
with an error of one kind. -/
theorem labels_display_only {name : String} {op : Operation} (hop : (name, op) ∈ operations)
    (hname : name ∉ displayOperations) {a b : Arguments} (hab : a.unlabelled = b.unlabelled) :
    (∃ v w, op a = .ok v ∧ op b = .ok w ∧ v.unlabelled = w.unlabelled)
      ∨ ∃ e f, op a = .error e ∧ op b = .error f ∧ e.kind = f.kind := by
  have hignores : IgnoresLabels op := by
    simp only [operations, List.mem_append] at hop
    rcases hop with (((((((h | h) | h) | h) | h) | h) | h) | h) | h
    · exact numberOperations_ignoreLabels _ h
    · exact operatorOperations_ignoreLabels _ h hname
    · exact polynomialConstructors_ignoreLabels _ h
    · exact polynomialFields_ignoreLabels _ h hname
    · exact polynomialMethods_ignoreLabels _ h hname
    · exact rootOperations_ignoreLabels _ h
    · exact expressionOperations_ignoreLabels _ h hname
    · exact functionOperations_ignoreLabels _ h
    · exact decompositionOperations_ignoreLabels _ h hname
  exact hignores.two_runs hab

/-- The partial fractions of `t / (t² - 1)`, where numerator and denominator are labelled in the one
run, and the denominator under another label in the other. -/
theorem labels_display_only_partialFractions :
    let n : Polynomial := .ofList [0, 1] none
    let d : Polynomial := .ofList [-1, 0, 1] none
    let a : Arguments :=
      ⟨[function ⟨n.withLabel (some "t"), d.withLabel (some "t"), by decide +kernel⟩], []⟩
    let b : Arguments := ⟨[function ⟨n, d.withLabel (some "u"), by decide +kernel⟩], []⟩
    let op : Operation := fun a => do .ok (decomposition (← partialFractions? a))
    a.unlabelled = b.unlabelled
      ∧ ((∃ v w, op a = .ok v ∧ op b = .ok w ∧ v.unlabelled = w.unlabelled)
        ∨ ∃ e f, op a = .error e ∧ op b = .error f ∧ e.kind = f.kind) := by
  intro n d a b op
  have hab : a.unlabelled = b.unlabelled := rfl
  have hop : ("partial_fractions", op) ∈ operations :=
    List.mem_append_right _ List.mem_cons_self
  exact ⟨hab, labels_display_only hop (by decide) hab⟩

end Calculator

end ExactAlgebra
