import ExactAlgebra.Polynomial.Division
import ExactAlgebra.Value.Number

/-!
The operators on values of mixed types.

Sums, differences, products and quotients follow one pattern. Two polynomials are
combined as polynomials; a polynomial and a number, as which a numeral counts too, are
combined with the number as a constant; with a rational function on either side both
operands are combined as rational functions; two numbers are combined as numbers, and
numbers and expressions as expressions. Two sequences of one kind are joined by `+`, and a
sequence is repeated by the product with an integer. Everything else is refused.

* `Arithmetic` is the data of one such operator and `Arithmetic.apply` the pattern.
* `add`, `sub`, `mul`, `div` are the four operators.
* `floorDiv`, `mod`, `divMod`, `pow` are the operators in which a polynomial or a rational
  function is the first operand, and `neg`, `pos` those of a single operand; they act on
  numbers too.
* `call` applies a polynomial or a rational function.
-/

namespace ExactAlgebra.Value

/-! ### The four operations -/

/-- An operator on polynomials, on rational functions, on a polynomial and a number, and on
two numbers. -/
structure Arithmetic where
  onPolynomials : Polynomial → Polynomial → Except Error Value
  byNumber : Polynomial → Rat → Except Error Value
  ofNumber : Rat → Polynomial → Except Error Value
  onFunctions : RationalFunction → RationalFunction → Except Error Value
  onNumbers : ExactNumber → ExactNumber → Except Error Value
  onExpressions : Expression → Expression → Expression
  /-- What the operator does to two values that are neither of these. -/
  onOthers : Value → Value → Except Error Value
  /-- Whether a rational function on the right is taken as the first operand. -/
  swapsFunctions : Bool

/-- The expression that a value is, where a number, the infinite value and the undefined one
count as expressions. -/
def toSymbolic? : Value → Option Expression
  | expression e => some e
  | infinite => some (.div (.number 1) (.number 0))
  | undefined => some (.div (.number 0) (.number 0))
  | boolean _ => none
  | v => v.exactNumber?.map fun a => .number a.number

/-- An operator on two rational functions, the second of which is read from a value. -/
def withFunction (op : RationalFunction → Except Error Value) (v : Value) : Except Error Value :=
  match v.asFunction? with
  | .ok s => op s
  | .error _ => .error .unsupportedOperands

/-- An operator on a number that is read from a value. -/
def withNumber (op : Rat → Except Error Value) (v : Value) : Except Error Value :=
  match v.toRational? with
  | .ok c => op c
  | .error _ => .error .unsupportedOperands

/-- The operator on two values. -/
def Arithmetic.apply (op : Arithmetic) : Value → Value → Except Error Value
  | polynomial p, polynomial q => op.onPolynomials p q
  | function r, v => withFunction (op.onFunctions r) v
  | v, function s =>
    withFunction (fun r => if op.swapsFunctions then op.onFunctions s r else op.onFunctions r s) v
  | polynomial p, v => withNumber (op.byNumber p) v
  | v, polynomial q => withNumber (fun c => op.ofNumber c q) v
  | v, w =>
    match exactNumbers? v w, v.toSymbolic?, w.toSymbolic? with
    | .ok (a, b), _, _ => op.onNumbers a b
    | .error _, some e, some f => .ok (ofExpression (op.onExpressions e f))
    | .error _, _, _ => op.onOthers v w

/-- The refusal of two values. -/
def refuse (_ _ : Value) : Except Error Value := .error .unsupportedOperands

/-- Two sequences of one kind, one after the other. -/
def concatenate : Value → Value → Except Error Value
  | text s, text t => .ok (text (s ++ t))
  | bytes s, bytes t => .ok (bytes (s ++ t))
  | list vs, list ws => .ok (list (vs ++ ws))
  | v, w =>
    match v.tupleItems?, w.tupleItems? with
    | some vs, some ws => .ok (tuple (vs ++ ws))
    | _, _ => .error .unsupportedOperands

/-- The items of a sequence, repeated; a negative number of times counts as none. -/
def repeatItems {α : Type} (n : Int) (items : List α) : List α :=
  (List.replicate n.toNat items).flatten

/-- A sequence that is repeated. -/
def repeated? (n : Int) : Value → Option Value
  | text s => some (text (String.ofList (repeatItems n s.toList)))
  | bytes s => some (bytes (String.ofList (repeatItems n s.toList)))
  | list vs => some (list (repeatItems n vs))
  | v => do some (tuple (repeatItems n (← v.tupleItems?)))

/-- A sequence and the number of times it is repeated, in either order. -/
def repetition (v w : Value) : Except Error Value :=
  match (do v.repeated? (← w.index?)) <|> (do w.repeated? (← v.index?)) with
  | some r => .ok r
  | none => .error .unsupportedOperands

/-- The sum. -/
def addition : Arithmetic where
  onPolynomials p q := .ok (polynomial (p + q))
  byNumber p c := .ok (polynomial (p + .const c p.label))
  ofNumber c q := .ok (polynomial (q + .const c q.label))
  onFunctions r s := .ok (function (r + s))
  onNumbers a b := .ok (a.add b).toValue
  onExpressions e f := .add [e, f]
  onOthers := concatenate
  swapsFunctions := true

/-- The difference. -/
def subtraction : Arithmetic where
  onPolynomials p q := .ok (polynomial (p - q))
  byNumber p c := .ok (polynomial (p - .const c p.label))
  ofNumber c q := .ok (polynomial (.const c q.label - q))
  onFunctions r s := .ok (function (r - s))
  onNumbers a b := .ok (a.sub b).toValue
  onExpressions := .sub
  onOthers := refuse
  swapsFunctions := false

/-- The product. -/
def multiplication : Arithmetic where
  onPolynomials p q := .ok (polynomial (p * q))
  byNumber p c := .ok (polynomial (p.scale c))
  ofNumber c q := .ok (polynomial (q.scale c))
  onFunctions r s := .ok (function (r * s))
  onNumbers a b := .ok (a.mul b).toValue
  onExpressions e f := .mul [e, f]
  onOthers := repetition
  swapsFunctions := true

/-- A polynomial divided by a number. -/
def scaleDown? (p : Polynomial) (c : Rat) : Except Error Value :=
  if c = 0 then .error .zeroScalarDivisor else .ok (polynomial (p.scale (1 / c)))

/-- The quotient. The quotient of two polynomials is a rational function. -/
def division : Arithmetic where
  onPolynomials p q := do .ok (function (← RationalFunction.ofPolynomials? p q))
  byNumber p c := scaleDown? p c
  ofNumber c q := do .ok (function (← RationalFunction.ofPolynomials? (.const c q.label) q))
  onFunctions r s := do .ok (function (← r.div? s))
  onNumbers a b := a.div b
  onExpressions := .div
  onOthers := refuse
  swapsFunctions := false

/-- The sum of two values. -/
def add (v w : Value) : Except Error Value := addition.apply v w

/-- The difference of two values. -/
def sub (v w : Value) : Except Error Value := subtraction.apply v w

/-- The product of two values. -/
def mul (v w : Value) : Except Error Value := multiplication.apply v w

/-- The quotient of two values. -/
def div (v w : Value) : Except Error Value := division.apply v w

/-! ### Operators of the first operand -/

/-- Quotient and remainder of long division of a polynomial by a value. -/
def polynomialDivMod? (p : Polynomial) (w : Value) : Except Error (Polynomial × Polynomial) :=
  match w.asOperand? p.label with
  | .ok q => p.divMod? q
  | .error _ => .error .notADivisor

/-- The greatest common divisor of a polynomial and a value. -/
def polynomialGcd? (p : Polynomial) (w : Value) : Except Error Polynomial :=
  match w.asOperand? p.label with
  | .ok q => .ok (p.gcd q)
  | .error _ => .error .notAPolynomial

/-- The greatest common divisor of a list of values. -/
def polynomialGcdAll? (vs : List Value) : Except Error Polynomial :=
  vs.foldlM polynomialGcd? (.zero none)

/-- A polynomial with a value substituted for the variable, where a number counts as a
constant. -/
def compose? (p : Polynomial) (w : Value) : Except Error Polynomial := do
  .ok (p.compose (← w.asOperand? p.label))

/-- The quotient of long division, or the integral quotient of two numbers. -/
def floorDiv : Value → Value → Except Error Value
  | polynomial p, w => do .ok (polynomial (← polynomialDivMod? p w).1)
  | v, w => do
    let (a, b) ← exactNumbers? v w
    .ok (← a.floorDiv b).toValue

/-- The remainder of long division, or of the division of two numbers. -/
def mod : Value → Value → Except Error Value
  | polynomial p, w => do .ok (polynomial (← polynomialDivMod? p w).2)
  | v, w => do
    let (a, b) ← exactNumbers? v w
    .ok (← a.mod b).toValue

/-- Quotient and remainder. -/
def divMod : Value → Value → Except Error Value
  | polynomial p, w => do
    let (q, r) ← polynomialDivMod? p w
    .ok (tuple [polynomial q, polynomial r])
  | v, w => do
    let (a, b) ← exactNumbers? v w
    .ok (tuple [(← a.floorDiv b).toValue, (← a.mod b).toValue])

/-- The power of a rational function: an integer exponent may be negative. -/
def functionPow? (r : RationalFunction) (w : Value) : Except Error RationalFunction :=
  match w.integer? with
  | some n => r.pow? n
  | none => do .ok (r ^ (← w.toOrder? .power))

/-- The power. -/
def pow : Value → Value → Except Error Value
  | polynomial p, w => do .ok (polynomial (p ^ (← w.toOrder? .power)))
  | function r, w => do .ok (function (← functionPow? r w))
  | v, w =>
    match exactNumbers? v w, v.toSymbolic?, w.toSymbolic? with
    | .ok (a, b), _, _ => a.pow b
    | .error _, some e, some f => .ok (ofExpression (.pow e f))
    | .error e, _, _ => .error e

/-- The negative. -/
def neg : Value → Except Error Value
  | polynomial p => .ok (polynomial (-p))
  | function r => .ok (function (-r))
  | v =>
    match v.exactNumber?, v.toSymbolic? with
    | some a, _ => .ok a.neg.toValue
    | none, some e => .ok (ofExpression (.mul [.number (-1), e]))
    | none, none => .error .unsupportedOperands

/-- The value under a plus sign: a polynomial or a number itself. -/
def pos : Value → Except Error Value
  | polynomial p => .ok (polynomial p)
  | v =>
    match v.exactNumber?, v.toSymbolic? with
    | some a, _ => .ok a.toValue
    | none, some e => .ok (ofExpression e)
    | none, none => .error .unsupportedOperands

/-- A polynomial or a rational function applied to an argument. A polynomial applied to a
polynomial is composed with it; every other argument is a point. -/
def call : Value → Value → Except Error Value
  | polynomial p, polynomial q => .ok (polynomial (p.compose q))
  | polynomial p, x => do .ok (rational (p.eval (← x.toRational?)))
  | function r, x => do .ok (rational (← r.eval? (← x.toRational?)))
  | _, _ => .error .unsupportedOperands

end ExactAlgebra.Value
