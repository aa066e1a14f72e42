import ExactAlgebra.Calculator.Functions
import ExactAlgebra.Calculator.Numbers
import ExactAlgebra.Proofs.Labels.Member
import ExactAlgebra.Proofs.Labels.Operators

/-!
Arguments without labels, and the operations that do not see labels.

* **Arguments.** `Arguments.unlabelled` drops the labels of all arguments. Reading an argument and
  going on with it is seen alike if the continuation is (`seen_at?_bind`, `seen_at?_bind_bind`).
* **Limits.** A search within a limit is seen alike if the search is (`seen_withinLimit`); what an
  error says about the limit is a text.
* **Operations.** `IgnoresLabels` says of an operation that it is seen alike with and without labels
  of its arguments. `IgnoresLabels.of_unary`, `IgnoresLabels.of_binary` and the lemmas beside them
  show it for the forms that many operations share; `IgnoresLabels.two_runs` is what it says of two
  runs.
-/

namespace ExactAlgebra

namespace Calculator

open Value

variable {α β γ δ : Type} {view : α → β} {view' : γ → δ}

/-! ### Arguments -/

namespace Arguments

/-- The arguments without labels. -/
def unlabelled (a : Arguments) : Arguments :=
  ⟨a.positional.map Value.unlabelled, a.named.map (Prod.map id Value.unlabelled)⟩

variable {a : Arguments} {i : ℕ}

/-- The argument at a place loses its label with all others; which places are filled does not
change. -/
lemma at?_unlabelled (a : Arguments) (i : ℕ) :
    a.unlabelled.at? i = (a.at? i).map Value.unlabelled := by
  rw [at?, at?, unlabelled, List.getElem?_map]
  cases a.positional[i]? <;> rfl

/-- An argument is seen alike: labels that are gone are not dropped again. -/
lemma seen_at? (a : Arguments) (i : ℕ) :
    seen Value.unlabelled (a.unlabelled.at? i) = seen Value.unlabelled (a.at? i) := by
  rw [at?_unlabelled]
  cases a.at? i with
  | error e => rfl
  | ok v => exact congrArg Except.ok v.unlabelled_unlabelled

/-- An argument is read in a way that does not see labels. -/
lemma at?_bind_unlabelled {f g : Value → Except Error α} (h : ∀ v, f v.unlabelled = g v) :
    (a.unlabelled.at? i >>= f) = a.at? i >>= g := by
  rw [at?_unlabelled]
  cases a.at? i with
  | error e => rfl
  | ok v => exact h v

/-- An argument is read, and the computation goes on with it. -/
lemma seen_at?_bind {f g : Value → Except Error α}
    (h : ∀ v, seen view (f v.unlabelled) = seen view (g v)) :
    seen view (a.unlabelled.at? i >>= f) = seen view (a.at? i >>= g) := by
  rw [at?_unlabelled]
  cases a.at? i with
  | error e => rfl
  | ok v => exact h v

/-- An argument is read and converted, and the computation goes on with the result. -/
lemma seen_at?_bind_bind {read : Value → Except Error γ} {f g : γ → Except Error α}
    (hread : ∀ v, seen view' (read v.unlabelled) = seen view' (read v))
    (h : ∀ x y, view' x = view' y → seen view (f x) = seen view (g y)) :
    seen view (do f (← read (← a.unlabelled.at? i))) = seen view (do g (← read (← a.at? i))) :=
  seen_at?_bind fun v => seen_bind (hread v) h

/-- The names of arguments stay as they are, so that a name finds the same argument. -/
lemma lookup_map_unlabelled (named : List (String × Value)) (name : String) :
    (named.map (Prod.map id Value.unlabelled)).lookup name
      = (named.lookup name).map Value.unlabelled := by
  induction named with
  | nil => rfl
  | cons entry named ih =>
      obtain ⟨key, v⟩ := entry
      rw [List.map_cons, Prod.map_apply, List.lookup_cons, List.lookup_cons, ih, id]
      cases name == key <;> rfl

/-- An argument that may be missing, where the value in its place has no label. -/
lemma optional_unlabelled (a : Arguments) (i : ℕ) (name : String) {default : Value}
    (hdefault : default.unlabelled = default) :
    a.unlabelled.optional i name default = (a.optional i name default).unlabelled := by
  rw [optional, optional, unlabelled, List.getElem?_map, lookup_map_unlabelled]
  cases a.positional[i]? with
  | some v => rfl
  | none =>
      cases a.named.lookup name with
      | some v => rfl
      | none => exact hdefault.symm

/-- What is read from an argument as a number, a label or a symbol is the same without labels. -/
@[simp] lemma rational?_unlabelled (a : Arguments) (i : ℕ) :
    a.unlabelled.rational? i = a.rational? i :=
  at?_bind_unlabelled toRational?_unlabelled

@[simp] lemma integer?_unlabelled (a : Arguments) (i : ℕ) :
    a.unlabelled.integer? i = a.integer? i :=
  at?_bind_unlabelled toInteger?_unlabelled

@[simp] lemma label?_unlabelled (a : Arguments) (i : ℕ) :
    a.unlabelled.label? i = a.label? i := by
  rw [label?, label?, optional_unlabelled a i _ rfl, toLabel?_unlabelled]

@[simp] lemma symbol?_unlabelled (a : Arguments) (i : ℕ) :
    symbol? a.unlabelled i = symbol? a i := by
  rw [symbol?, symbol?, optional_unlabelled a i _ rfl, toLabel?_unlabelled]

/-- An order is read alike, whatever its role is and whether it is given or not. -/
lemma seen_order? (a : Arguments) (i : ℕ) (role : OrderRole) (default : ℤ) :
    seen id (a.unlabelled.order? i role default) = seen id (a.order? i role default) := by
  rw [order?, order?, optional_unlabelled a i _ rfl]
  exact seen_toOrder? _ role

/-- An object that is read from an argument is the same up to labels. -/
lemma seen_polynomial? (a : Arguments) (i : ℕ) :
    seen Polynomial.unlabelled (a.unlabelled.polynomial? i)
      = seen Polynomial.unlabelled (a.polynomial? i) :=
  seen_at?_bind fun v => v.seen_toPolynomial?

lemma seen_function? (a : Arguments) (i : ℕ) :
    seen RationalFunction.unlabelled (a.unlabelled.function? i)
      = seen RationalFunction.unlabelled (a.function? i) :=
  seen_at?_bind fun v => v.seen_toFunction?

lemma seen_taylor? (a : Arguments) (i : ℕ) :
    seen TaylorExpansion.unlabelled (a.unlabelled.taylor? i)
      = seen TaylorExpansion.unlabelled (a.taylor? i) :=
  seen_at?_bind fun v => v.seen_toTaylor?

lemma seen_decomposition? (a : Arguments) (i : ℕ) :
    seen Decomposition.unlabelled (a.unlabelled.decomposition? i)
      = seen Decomposition.unlabelled (a.decomposition? i) :=
  seen_at?_bind fun v => v.seen_toDecomposition?

/-- A term of a decomposition has no label of its own. -/
@[simp] lemma simpleFraction?_unlabelled (a : Arguments) (i : ℕ) :
    a.unlabelled.simpleFraction? i = a.simpleFraction? i :=
  at?_bind_unlabelled toSimpleFraction?_unlabelled

/-! ### Limits -/

/-- The error of a search within a limit that is given as a value. For the searches that are picked
out, the error quotes the value, or the value is refused if it is no number. -/
def limitCause (own : Search → Bool) (v : Value) : Error → Error
  | .limitExceeded s shown =>
      if own s = false then .limitExceeded s shown
      else if v.limitNumber?.isSome then .limitExceeded s v.toText
      else .unsupportedOperands
  | e => e

/-- What an error says about the limit is a text, and a text may show a label; the kind of the error
does not. -/
lemma withoutTexts_limitCause (own : Search → Bool) (v : Value) (e : Error) :
    (limitCause own v.unlabelled e.withoutTexts).withoutTexts
      = (limitCause own v e).withoutTexts := by
  cases e with
  | limitExceeded s shown =>
      by_cases hown : own s = false
      · simp [limitCause, Error.withoutTexts, hown]
      by_cases hlimit : v.limitNumber?.isSome = true
      · simp [limitCause, Error.withoutTexts, hown, hlimit]
      · simp [limitCause, Error.withoutTexts, hown, hlimit]
  | _ => rfl

/-- The outcome of a search within the limit that a value is, where no value stands for the default
limit. -/
def searchWithin (own : Search → Bool) (default : ℤ) (search : ℤ → Except Error α) :
    Value → Except Error α
  | .absent => search default
  | v =>
    match search (v.limitNumber?.getD (-1)) with
    | .ok x => .ok x
    | .error e => .error (limitCause own v e)

/-- A search within a limit sees of the arguments the value of the limit alone. -/
lemma withinLimit_eq (a : Arguments) (i : ℕ) (name : String) (default : ℤ) (own : Search → Bool)
    (search : ℤ → Except Error α) :
    a.withinLimit i name default own search
      = searchWithin own default search (a.optional i name .absent) := by
  rw [withinLimit]
  generalize a.optional i name .absent = v
  split
  · rfl
  · next hpresent =>
      rw [searchWithin.eq_2 _ _ _ v hpresent]
      -- only an error at the limit is rewritten, by the same cases on both sides
      cases search (v.limitNumber?.getD (-1)) with
      | ok x => rfl
      | error e =>
          cases e with
          | limitExceeded s shown =>
              simp only [limitCause]
              split
              · rfl
              · split <;> rfl
          | _ => rfl

/-- A search within a limit is seen alike when the search is. -/
lemma seen_withinLimit (a : Arguments) (i : ℕ) (name : String) (default : ℤ) (own : Search → Bool)
    {search search' : ℤ → Except Error α}
    (h : ∀ n, seen view (search n) = seen view (search' n)) :
    seen view (a.unlabelled.withinLimit i name default own search)
      = seen view (a.withinLimit i name default own search') := by
  rw [withinLimit_eq, withinLimit_eq, optional_unlabelled a i name rfl]
  generalize a.optional i name .absent = v
  -- where a limit is given, it is the same number in both runs
  have hlimit : seen view (match search (v.unlabelled.limitNumber?.getD (-1)) with
        | .ok x => .ok x
        | .error e => .error (limitCause own v.unlabelled e))
      = seen view (match search' (v.limitNumber?.getD (-1)) with
        | .ok x => .ok x
        | .error e => .error (limitCause own v e)) := by
    rw [limitNumber?_unlabelled]
    rcases seen_eq_iff.mp (h (v.limitNumber?.getD (-1))) with
      ⟨x, x', hx, hx', hxx⟩ | ⟨e, e', he, he', hee⟩
    · rw [hx, hx']
      exact congrArg Except.ok hxx
    · rw [he, he']
      refine congrArg Except.error ?_
      -- the errors differ in texts; the limit is shown in both, without its label in the one
      calc (limitCause own v.unlabelled e).withoutTexts
          = (limitCause own v.unlabelled.unlabelled e.withoutTexts).withoutTexts :=
            (withoutTexts_limitCause own v.unlabelled e).symm
        _ = (limitCause own v.unlabelled e'.withoutTexts).withoutTexts := by
            rw [unlabelled_unlabelled, hee]
        _ = (limitCause own v e').withoutTexts := withoutTexts_limitCause own v e'
  -- where no limit is given, the search runs under the default
  cases v with
  | absent => exact h default
  | _ => exact hlimit

end Arguments

/-! ### Operations -/

/-- An operation is seen alike with and without labels of its arguments. -/
def IgnoresLabels (op : Operation) : Prop :=
  ∀ a, seen Value.unlabelled (op a.unlabelled) = seen Value.unlabelled (op a)

/-- On arguments that differ in labels only, both runs return values that differ in labels only, or
both fail with an error of one kind. -/
theorem IgnoresLabels.two_runs {op : Operation} (h : IgnoresLabels op) {a b : Arguments}
    (hab : a.unlabelled = b.unlabelled) :
    (∃ v w, op a = .ok v ∧ op b = .ok w ∧ v.unlabelled = w.unlabelled)
      ∨ ∃ e f, op a = .error e ∧ op b = .error f ∧ e.kind = f.kind := by
  rcases seen_eq_iff.mp (seen_congr h hab) with hv | ⟨e, f, he, hf, hef⟩
  · exact .inl hv
  · exact .inr ⟨e, f, he, hf, Error.kind_eq_of_withoutTexts hef⟩

namespace IgnoresLabels

open Arguments

/-- An operation that gives the same result without labels does not see them. -/
lemma of_eq {op : Operation} (h : ∀ a, op a.unlabelled = op a) : IgnoresLabels op :=
  fun a => congrArg (seen Value.unlabelled) (h a)

/-- An operation on an argument that is read as a rational number. -/
lemma of_rational (i : ℕ) (f : ℚ → Except Error Value) :
    IgnoresLabels fun a => a.rational? i >>= f :=
  of_eq fun a => by rw [rational?_unlabelled]

/-- An operation on an argument that is read as an integer. -/
lemma of_integer (i : ℕ) (f : ℤ → Except Error Value) :
    IgnoresLabels fun a => a.integer? i >>= f :=
  of_eq fun a => by rw [Arguments.integer?_unlabelled]

/-- An operation on the first argument. -/
lemma of_unary {op : Value → Except Error Value}
    (h : ∀ v, seen Value.unlabelled (op v.unlabelled) = seen Value.unlabelled (op v)) :
    IgnoresLabels fun a => a.at? 0 >>= op :=
  fun _ => seen_at?_bind h

/-- An operation on the first two arguments. -/
lemma of_binary {op : Value → Value → Except Error Value}
    (h : ∀ v w, seen Value.unlabelled (op v.unlabelled w.unlabelled)
      = seen Value.unlabelled (op v w)) :
    IgnoresLabels (binary op) :=
  fun _ => seen_at?_bind fun v => seen_at?_bind fun w => h v w

/-- A field of an object, its label and its variable apart. -/
lemma of_field {name : String} (hlabel : name ≠ "label") (hvariable : name ≠ "variable") :
    IgnoresLabels (fieldOperation name) :=
  of_unary fun v => by
    rw [field?_unlabelled v hlabel hvariable]
    cases v.field? name with
    | none => rfl
    | some u => exact congrArg Except.ok u.unlabelled_unlabelled

/-- A polynomial and a number, combined. -/
lemma of_atPoint {f : Polynomial → ℚ → Value}
    (h : ∀ p x, (f p.unlabelled x).unlabelled = (f p x).unlabelled) :
    IgnoresLabels (atPoint f) := fun a => by
  refine seen_bind (a.seen_polynomial? 0) fun p q hpq => ?_
  rw [rational?_unlabelled]
  exact seen_bind_right (a.rational? 1) fun x => congrArg Except.ok
    (eq_of_view (F := fun p => (f p x).unlabelled) (fun p => h p x) hpq)

/-- The polynomial at the first place, mapped to a polynomial. -/
lemma of_polynomialMap {f : Polynomial → Polynomial}
    (h : ∀ p, (f p).unlabelled = f p.unlabelled) :
    IgnoresLabels (fun a => do .ok (polynomial (f (← a.polynomial? 0)))) := fun a =>
  seen_bind_ok (a.seen_polynomial? 0) fun p q hpq => congrArg polynomial (by rw [h, hpq, h])

/-- The value at a point: the object is read as a function of the point, and the point as a
number. -/
lemma of_evaluation : IgnoresLabels evaluation := fun a =>
  seen_at?_bind_bind seen_pointFunction? fun f g hfg => by
    rw [rational?_unlabelled]
    exact seen_bind_right (a.rational? 1) fun x => congrFun hfg x

/-- The derivative of an order: the object is read as the sequence of its derivatives. -/
lemma of_differentiation : IgnoresLabels differentiation := fun a =>
  seen_at?_bind_bind seen_derivatives? fun _ _ hfg =>
    seen_bind_id (a.seen_order? 1 .derivative 1) fun n => congrArg Except.ok (congrFun hfg n)

/-- An operation on an object at a point. -/
lemma of_aboutPoint {f : Value → ℚ → Except Error Value}
    (h : ∀ v x, seen Value.unlabelled (f v.unlabelled x) = seen Value.unlabelled (f v x)) :
    IgnoresLabels (aboutPoint f) := fun a =>
  seen_at?_bind fun v => by
    rw [rational?_unlabelled]
    exact seen_bind_right (a.rational? 1) fun x => h v x

/-- The value of an expression at a number, which replaces the symbol that is given. -/
lemma of_expressionAt : IgnoresLabels expressionAt :=
  of_eq fun a => at?_bind_unlabelled fun v => by
    rw [expressionIn?_unlabelled, symbol?_unlabelled, rational?_unlabelled]

end IgnoresLabels

end Calculator

end ExactAlgebra
