import ExactAlgebra.Proofs.Labels.Value
import ExactAlgebra.Value.Operators

/-!
The operators on values do not see labels.

* **Sequences.** Sequences without labels are joined and repeated to what the sequences are joined
  and repeated to, without labels (`seen_concatenate`, `seen_repetition`).
* **The four operations.** `Arithmetic.IgnoresLabels` says of every path of an operator that it is
  seen alike with and without labels. The operator is then seen alike on all values
  (`IgnoresLabels.apply`), and the four operations are cases of this.
* **Operators of the first operand.** Long division, the greatest common divisor of a list, which
  is folded one value after the other (`seen_polynomialGcdAll?`), composition, powers and values at
  a point follow those of polynomials and rational functions.
-/

namespace ExactAlgebra

namespace Value

variable (v w : Value)

/-! ### Numbers and expressions -/

/-- Numbers have no labels. -/
@[simp] lemma exactNumber?_unlabelled : v.unlabelled.exactNumber? = v.exactNumber? := by
  cases v <;> rfl

/-- Whether a value is a truth value does not depend on labels. -/
@[simp] lemma isBoolean_unlabelled : v.unlabelled.isBoolean = v.isBoolean := by
  cases v <;> rfl

@[simp] lemma isComputedFraction_unlabelled :
    v.unlabelled.isComputedFraction = v.isComputedFraction := by
  cases v <;> rfl

/-- A number and an expression stand for an expression, and so do the infinite and the undefined
value. -/
@[simp] lemma toSymbolic?_unlabelled : v.unlabelled.toSymbolic? = v.toSymbolic? := by
  cases v <;> rfl

/-- Whether two values are combined as numbers depends on their forms. -/
@[simp] lemma exactNumbers?_unlabelled :
    exactNumbers? v.unlabelled w.unlabelled = exactNumbers? v w := by
  simp only [exactNumbers?, exactNumber?_unlabelled, isBoolean_unlabelled,
    isComputedFraction_unlabelled]

/-! ### Sequences -/

/-- The items of two lists lose their labels side by side. -/
lemma unlabelledAll_append (vs ws : List Value) :
    unlabelledAll (vs ++ ws) = unlabelledAll vs ++ unlabelledAll ws := by
  rw [unlabelledAll_eq_map, unlabelledAll_eq_map, unlabelledAll_eq_map, List.map_append]

/-- The items of a repeated list lose their labels in every copy. -/
lemma unlabelledAll_repeatItems (n : ℤ) (vs : List Value) :
    unlabelledAll (repeatItems n vs) = repeatItems n (unlabelledAll vs) := by
  rw [unlabelledAll_eq_map, unlabelledAll_eq_map, repeatItems, repeatItems, List.map_flatten,
    List.map_replicate]

/-- Two sequences of one kind are joined, and all else is refused. -/
lemma seen_concatenate :
    seen unlabelled (concatenate v.unlabelled w.unlabelled)
      = seen unlabelled (concatenate v w) := by
  rw [concatenate.eq_def v w]
  split
  · rfl
  · rfl
  -- two lists are joined item by item
  · next vs ws =>
      change Except.ok (unlabelled (list (unlabelledAll vs ++ unlabelledAll ws))) = _
      rw [← unlabelledAll_append]
      exact congrArg Except.ok (unlabelled_unlabelled (list (vs ++ ws)))
  · next htexts hbytes hlists =>
      -- otherwise both must be tuples, or objects that count as tuples
      rw [concatenate.eq_4 _ _
        (fun s t hs ht => htexts s t (unlabelled_eq_text hs) (unlabelled_eq_text ht))
        (fun s t hs ht => hbytes s t (unlabelled_eq_bytes hs) (unlabelled_eq_bytes ht))
        (fun vs ws hvs hws => (unlabelled_eq_list hvs).elim fun vs hvs =>
          (unlabelled_eq_list hws).elim fun ws hws => hlists vs ws hvs hws),
        tupleItems?_unlabelled, tupleItems?_unlabelled]
      cases v.tupleItems? with
      | none => rfl
      | some vs =>
          cases w.tupleItems? with
          | none => rfl
          | some ws =>
              change Except.ok (unlabelled (tuple (vs.map unlabelled ++ ws.map unlabelled))) = _
              rw [← List.map_append, ← unlabelledAll_eq_map]
              exact congrArg Except.ok (unlabelled_unlabelled (tuple (vs ++ ws)))

/-- A repeated sequence loses its labels in every copy. -/
lemma repeated?_unlabelled (n : ℤ) :
    v.unlabelled.repeated? n = (v.repeated? n).map unlabelled := by
  -- what is neither a list nor a text is repeated as a tuple
  have htuple : (do some (tuple (repeatItems n (← v.unlabelled.tupleItems?))))
      = (do some (tuple (repeatItems n (← v.tupleItems?)))).map unlabelled := by
    rw [tupleItems?_unlabelled]
    cases v.tupleItems? with
    | none => rfl
    | some vs =>
        rw [Option.map_some, ← unlabelledAll_eq_map]
        exact congrArg (fun items => some (tuple items)) (unlabelledAll_repeatItems n vs).symm
  cases v with
  | list vs => exact congrArg (fun items => some (list items)) (unlabelledAll_repeatItems n vs).symm
  | text s => rfl
  | bytes s => rfl
  | _ => exact htuple

/-- The sequence may stand on either side, so both orders are tried. -/
lemma seen_repetition :
    seen unlabelled (repetition v.unlabelled w.unlabelled)
      = seen unlabelled (repetition v w) := by
  -- one of the two orders, for any two values
  have hrepeated (v w : Value) : (do v.unlabelled.repeated? (← w.unlabelled.index?))
      = (do v.repeated? (← w.index?)).map unlabelled := by
    rw [index?_unlabelled]
    cases w.index? with
    | none => rfl
    | some n => exact v.repeated?_unlabelled n
  rw [repetition, repetition, hrepeated, hrepeated]
  cases (do v.repeated? (← w.index?)) with
  | some u => exact congrArg Except.ok u.unlabelled_unlabelled
  | none =>
      cases (do w.repeated? (← v.index?)) with
      | some u => exact congrArg Except.ok u.unlabelled_unlabelled
      | none => rfl

/-! ### The four operations -/

/-- Every path of an operator is seen alike with and without labels. -/
structure Arithmetic.IgnoresLabels (op : Arithmetic) : Prop where
  polynomials : ∀ p q, seen unlabelled (op.onPolynomials p.unlabelled q.unlabelled)
    = seen unlabelled (op.onPolynomials p q)
  byNumber : ∀ p c, seen unlabelled (op.byNumber p.unlabelled c)
    = seen unlabelled (op.byNumber p c)
  ofNumber : ∀ c q, seen unlabelled (op.ofNumber c q.unlabelled)
    = seen unlabelled (op.ofNumber c q)
  functions : ∀ r s, seen unlabelled (op.onFunctions r.unlabelled s.unlabelled)
    = seen unlabelled (op.onFunctions r s)
  others : ∀ v w, seen unlabelled (op.onOthers v.unlabelled w.unlabelled)
    = seen unlabelled (op.onOthers v w)

section

variable {v}

/-- An operator on the number that a value is. -/
lemma seen_withNumber {f g : ℚ → Except Error Value}
    (h : ∀ c, seen unlabelled (f c) = seen unlabelled (g c)) :
    seen unlabelled (withNumber f v.unlabelled) = seen unlabelled (withNumber g v) := by
  rw [withNumber, withNumber, toRational?_unlabelled]
  cases v.toRational? with
  | error e => rfl
  | ok c => exact h c

/-- An operator on the rational function that a value stands for. -/
lemma seen_withFunction {f g : RationalFunction → Except Error Value}
    (h : ∀ s s', s.unlabelled = s'.unlabelled → seen unlabelled (f s) = seen unlabelled (g s')) :
    seen unlabelled (withFunction f v.unlabelled) = seen unlabelled (withFunction g v) := by
  rw [withFunction, withFunction]
  rcases seen_eq_iff.mp v.seen_asFunction? with ⟨s, s', hs, hs', hss⟩ | ⟨e, e', he, he', -⟩
  · rw [hs, hs']
    exact h s s' hss
  · rw [he, he']

end

variable {op : Arithmetic}

/-- An operator on two functions, of which the labels of both differ. -/
lemma Arithmetic.IgnoresLabels.functions_congr (h : op.IgnoresLabels) {r r' s s' : RationalFunction}
    (hr : r.unlabelled = r'.unlabelled) (hs : s.unlabelled = s'.unlabelled) :
    seen unlabelled (op.onFunctions r s) = seen unlabelled (op.onFunctions r' s') :=
  seen_congr₂ h.functions hr hs

/-- An operator whose paths do not see labels does not see labels. -/
theorem Arithmetic.IgnoresLabels.apply (h : op.IgnoresLabels) (v w : Value) :
    seen unlabelled (op.apply v.unlabelled w.unlabelled) = seen unlabelled (op.apply v w) := by
  rw [Arithmetic.apply.eq_def op v w]
  split
  · next p q => exact h.polynomials p q
  · next r =>
      exact seen_withFunction fun s s' hs => h.functions_congr r.unlabelled_unlabelled hs
  -- a function on the right: the operator says which operand comes first
  · next s hv =>
      rw [unlabelled, Arithmetic.apply.eq_3 op _ _ (unlabelled_ne_function hv)]
      refine seen_withFunction fun r r' hr => ?_
      split
      · exact h.functions_congr s.unlabelled_unlabelled hr
      · exact h.functions_congr hr s.unlabelled_unlabelled
  -- from here on no operand is a function, and a polynomial stands beside a number
  · next p hwp hwf =>
      rw [unlabelled, Arithmetic.apply.eq_4 op _ _ (unlabelled_ne_polynomial hwp)
        (unlabelled_ne_function hwf)]
      exact seen_withNumber (h.byNumber p)
  · next q hvp hvf =>
      rw [unlabelled, Arithmetic.apply.eq_5 op _ _ (unlabelled_ne_polynomial hvp)
        (unlabelled_ne_function hvf)]
      exact seen_withNumber fun c => h.ofNumber c q
  -- neither a polynomial nor a function: the operands have to be numbers or expressions
  · next hvf hvp hwf hwp _ =>
      rw [Arithmetic.apply.eq_6 op _ _ (unlabelled_ne_function hvf) (unlabelled_ne_polynomial hvp)
          (unlabelled_ne_function hwf) (unlabelled_ne_polynomial hwp)
          (fun p _ hp _ => unlabelled_ne_polynomial hvp p hp),
        exactNumbers?_unlabelled, toSymbolic?_unlabelled, toSymbolic?_unlabelled]
      split
      · rfl
      · rfl
      · exact h.others v w

/-- The sum, which joins sequences. -/
lemma addition_ignoresLabels : addition.IgnoresLabels where
  polynomials p q := by simp [addition, unlabelled]
  byNumber p c := by simp [addition, unlabelled]
  ofNumber c q := by simp [addition, unlabelled]
  functions r s := by simp [addition, unlabelled]
  others := seen_concatenate

/-- The difference; there is none of sequences. -/
lemma subtraction_ignoresLabels : subtraction.IgnoresLabels where
  polynomials p q := by simp [subtraction, unlabelled]
  byNumber p c := by simp [subtraction, unlabelled]
  ofNumber c q := by simp [subtraction, unlabelled]
  functions r s := by simp [subtraction, unlabelled]
  others _ _ := rfl

/-- The product, which repeats sequences. -/
lemma multiplication_ignoresLabels : multiplication.IgnoresLabels where
  polynomials p q := by simp [multiplication, unlabelled]
  byNumber p c := by simp [multiplication, unlabelled]
  ofNumber c q := by simp [multiplication, unlabelled]
  functions r s := by simp [multiplication, unlabelled]
  others := seen_repetition

/-- A rational function as a value, if there is one. -/
lemma seen_function {x y : Except Error RationalFunction}
    (h : seen RationalFunction.unlabelled x = seen RationalFunction.unlabelled y) :
    seen unlabelled (do .ok (function (← x))) = seen unlabelled (do .ok (function (← y))) :=
  seen_bind_ok h fun _ _ hrs => congrArg function hrs

/-- A polynomial as a value, if there is one. -/
lemma seen_polynomial {x y : Except Error Polynomial}
    (h : seen Polynomial.unlabelled x = seen Polynomial.unlabelled y) :
    seen unlabelled (do .ok (polynomial (← x))) = seen unlabelled (do .ok (polynomial (← y))) :=
  seen_bind_ok h fun _ _ hpq => congrArg polynomial hpq

/-- The quotient, which makes rational functions of polynomials. -/
lemma division_ignoresLabels : division.IgnoresLabels where
  polynomials p q := seen_function (RationalFunction.seen_ofPolynomials? rfl rfl)
  byNumber p c := by
    change seen unlabelled (scaleDown? p.unlabelled c) = seen unlabelled (scaleDown? p c)
    rw [scaleDown?, scaleDown?]
    split <;> rfl
  ofNumber c q := seen_function (RationalFunction.seen_ofPolynomials? rfl rfl)
  functions r s := seen_function (r.seen_div? s)
  others _ _ := rfl

/-! ### Operators of the first operand -/

/-- Long division by a polynomial or a number; for all else the divisor is refused. -/
lemma seen_polynomialDivMod? (p : Polynomial) :
    seen (Prod.map Polynomial.unlabelled Polynomial.unlabelled)
        (polynomialDivMod? p.unlabelled w.unlabelled)
      = seen (Prod.map Polynomial.unlabelled Polynomial.unlabelled) (polynomialDivMod? p w) := by
  rw [polynomialDivMod?, polynomialDivMod?]
  rcases seen_eq_iff.mp (w.seen_asOperand? p.unlabelled.label p.label) with
    ⟨q, q', hq, hq', hqq⟩ | ⟨e, e', he, he', -⟩
  · rw [hq, hq']
    exact Polynomial.seen_divMod? rfl hqq
  · rw [he, he']

/-- The greatest common divisor with a polynomial or a number. -/
lemma seen_polynomialGcd? {p p' : Polynomial} (hp : p.unlabelled = p'.unlabelled) :
    seen Polynomial.unlabelled (polynomialGcd? p w.unlabelled)
      = seen Polynomial.unlabelled (polynomialGcd? p' w) := by
  rw [polynomialGcd?, polynomialGcd?]
  rcases seen_eq_iff.mp (w.seen_asOperand? p.label p'.label) with
    ⟨q, q', hq, hq', hqq⟩ | ⟨e, e', he, he', -⟩
  · rw [hq, hq']
    exact congrArg Except.ok (by rw [Polynomial.unlabelled_gcd, Polynomial.unlabelled_gcd, hp, hqq])
  · rw [he, he']

/-- The divisor so far is the same up to its label, value after value. -/
lemma seen_foldlM_polynomialGcd? (vs : List Value) {p p' : Polynomial}
    (hp : p.unlabelled = p'.unlabelled) :
    seen Polynomial.unlabelled ((vs.map unlabelled).foldlM polynomialGcd? p)
      = seen Polynomial.unlabelled (vs.foldlM polynomialGcd? p') := by
  induction vs generalizing p p' with
  | nil => exact congrArg Except.ok hp
  | cons v vs ih =>
      rw [List.map_cons, List.foldlM_cons, List.foldlM_cons]
      exact seen_bind (v.seen_polynomialGcd? hp) fun _ _ => ih

/-- The list is folded from the zero polynomial on. -/
lemma seen_polynomialGcdAll? (vs : List Value) :
    seen Polynomial.unlabelled (polynomialGcdAll? (vs.map unlabelled))
      = seen Polynomial.unlabelled (polynomialGcdAll? vs) := seen_foldlM_polynomialGcd? vs rfl

/-- The argument of a composition is a polynomial or a constant. -/
lemma seen_compose? (p : Polynomial) :
    seen Polynomial.unlabelled (compose? p.unlabelled w.unlabelled)
      = seen Polynomial.unlabelled (compose? p w) :=
  seen_bind_ok (w.seen_asOperand? p.unlabelled.label p.label) fun q q' hq => by
    rw [Polynomial.unlabelled_compose, Polynomial.unlabelled_compose, hq,
      Polynomial.unlabelled_unlabelled]

/-- The quotient of long division, or that of two numbers. -/
lemma seen_floorDiv :
    seen unlabelled (floorDiv v.unlabelled w.unlabelled) = seen unlabelled (floorDiv v w) := by
  rw [floorDiv.eq_def v]
  split
  · next p =>
      exact seen_bind_ok (w.seen_polynomialDivMod? p) fun x y h =>
        congrArg polynomial (congrArg Prod.fst h)
  · next hpolynomial =>
      rw [floorDiv.eq_2 _ _ (unlabelled_ne_polynomial hpolynomial), exactNumbers?_unlabelled]

/-- The remainder is the second part of a long division. -/
lemma seen_mod : seen unlabelled (mod v.unlabelled w.unlabelled) = seen unlabelled (mod v w) := by
  rw [mod.eq_def v]
  split
  · next p =>
      exact seen_bind_ok (w.seen_polynomialDivMod? p) fun x y h =>
        congrArg polynomial (congrArg Prod.snd h)
  · next hpolynomial =>
      rw [mod.eq_2 _ _ (unlabelled_ne_polynomial hpolynomial), exactNumbers?_unlabelled]

/-- Quotient and remainder in a tuple. -/
lemma seen_divMod :
    seen unlabelled (divMod v.unlabelled w.unlabelled) = seen unlabelled (divMod v w) := by
  rw [divMod.eq_def v]
  split
  · next p =>
      refine seen_bind (w.seen_polynomialDivMod? p) fun x y h => ?_
      obtain ⟨hq, hr⟩ := Prod.mk.inj h
      change Except.ok (tuple [polynomial x.1.unlabelled, polynomial x.2.unlabelled])
        = Except.ok (tuple [polynomial y.1.unlabelled, polynomial y.2.unlabelled])
      rw [hq, hr]
  · next hpolynomial =>
      rw [divMod.eq_2 _ _ (unlabelled_ne_polynomial hpolynomial), exactNumbers?_unlabelled]

/-- The exponent is an integer, and it has no label. -/
lemma seen_functionPow? (r : RationalFunction) :
    seen RationalFunction.unlabelled (functionPow? r.unlabelled w.unlabelled)
      = seen RationalFunction.unlabelled (functionPow? r w) := by
  rw [functionPow?, functionPow?, integer?_unlabelled]
  cases w.integer? with
  | some n => exact r.seen_pow? n
  | none =>
      refine seen_bind_id (w.seen_toOrder? .power) fun n => ?_
      rw [seen_ok, seen_ok, RationalFunction.unlabelled_pow, RationalFunction.unlabelled_pow,
        RationalFunction.unlabelled_unlabelled]

/-- Polynomials and rational functions have powers of their own, numbers and expressions theirs. -/
lemma seen_pow : seen unlabelled (pow v.unlabelled w.unlabelled) = seen unlabelled (pow v w) := by
  rw [pow.eq_def v]
  split
  · next p =>
      refine seen_bind_id (w.seen_toOrder? .power) fun n => ?_
      rw [seen_ok, seen_ok, unlabelled, unlabelled, Polynomial.unlabelled_pow,
        Polynomial.unlabelled_pow, Polynomial.unlabelled_unlabelled]
  · next r => exact seen_function (w.seen_functionPow? r)
  · next hpolynomial hfunction =>
      rw [pow.eq_3 _ _ (unlabelled_ne_polynomial hpolynomial) (unlabelled_ne_function hfunction),
        exactNumbers?_unlabelled, toSymbolic?_unlabelled, toSymbolic?_unlabelled]

/-- The negative of an object has its label. -/
lemma seen_neg : seen unlabelled (neg v.unlabelled) = seen unlabelled (neg v) := by
  cases v with
  | polynomial p => simp [neg, unlabelled]
  | function r => simp [neg, unlabelled]
  | _ => rfl

/-- A sign `+` leaves an object as it is. -/
lemma seen_pos : seen unlabelled (pos v.unlabelled) = seen unlabelled (pos v) := by
  cases v <;> rfl

/-- A polynomial is composed with a polynomial, and evaluated at every other argument. -/
lemma seen_call :
    seen unlabelled (call v.unlabelled w.unlabelled) = seen unlabelled (call v w) := by
  have hpoint := toRational?_unlabelled w
  cases v with
  | polynomial p =>
      cases w with
      | polynomial q =>
          simp only [unlabelled, call, seen_ok, Polynomial.unlabelled_compose,
            Polynomial.unlabelled_unlabelled]
      | _ =>
          exact congrArg (fun x => seen unlabelled (do .ok (rational (p.eval (← x))))) hpoint
  | function r =>
      rw [unlabelled, call, call, hpoint]
      exact seen_bind_right w.toRational? fun x =>
        seen_bind_id (r.seen_eval? x) fun _ => rfl
  | _ => rfl

end Value

end ExactAlgebra
