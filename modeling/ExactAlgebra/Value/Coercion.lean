import ExactAlgebra.Integer.Factorial
import ExactAlgebra.Rational.Numeral
import ExactAlgebra.Value.Basic

/-!
Reading values as numbers, orders, labels, lists, polynomials and rational functions.

* `toRational?` is the one rule by which a value becomes a number: exact numbers and
  numerals do, truth values and floating-point numbers do not.
* `toOrder?` reads a natural number that selects a coefficient, a power or a repetition;
  only integers are orders.
* `newPolynomial?`, `asPolynomial?` and `asFunction?` build polynomials and rational
  functions, and `asOperand?` is the polynomial that stands beside another one in an
  operation.
-/

namespace ExactAlgebra.Value

/-! ### Numbers -/

/-- The rational number that a value is or denotes. -/
def toRational? : Value → Except Error Rat
  | integer n => .ok n
  | machineInteger n => .ok n
  | fraction r => .ok r
  | rational r => .ok r
  | boolean b => .error (.booleanAsNumber (shown (boolean b)))
  | machineBoolean b => .error (.booleanAsNumber (shown (machineBoolean b)))
  | text s =>
    match numeral? s with
    | some r => .ok r
    | none => .error (.unreadableNumber (Text.quoted s))
  | float s => .error (.inexactNumber (shown (float s)))
  | machineFloat s => .error (.inexactNumber (shown (machineFloat s)))
  | v => .error (.notANumber v.typeName)

/-- The integer that a value is or denotes. -/
def toInteger? (v : Value) : Except Error Int := do
  let r ← v.toRational?
  if r.den = 1 then .ok r.num else .error (.notAnInteger r)

/-- The integer that a value is, for values of an integer type. -/
def integer? : Value → Option Int
  | integer n => some n
  | machineInteger n => some n
  | rational r => if r.den = 1 then some r.num else none
  | _ => none

/-- The integer that counts or selects: an integer, or a truth value as `0` or `1`. -/
def index? : Value → Option Int
  | boolean b => some (if b then 1 else 0)
  | v => v.integer?

/-- The natural number that an order is. -/
def toOrder? (role : OrderRole) (v : Value) : Except Error Nat :=
  match v.integer? with
  | none => .error (.orderNotInteger role v.shown)
  | some n => if n < 0 then .error (.orderNegative role n) else .ok n.toNat

/-- The factorial of the natural number that a value denotes. -/
def factorial? (v : Value) : Except Error Nat := do
  let r ← v.toRational?
  if r.den = 1 then Integer.factorialOf r.num else .error (.factorialArgument v.toText)

/-! ### Labels, limits and truth values -/

/-- A label: a text, or none. -/
def toLabel? : Value → Except Error (Option String)
  | absent => .ok none
  | text s => .ok (some s)
  | _ => .error .unsupportedOperands

/-- The greatest integer that does not pass a limit. Truth values and floating-point numbers
are limits too, but numerals are not. -/
def limitNumber? : Value → Option Int
  | boolean b => some (if b then 1 else 0)
  | machineBoolean b => some (if b then 1 else 0)
  | float s => (numeral? s).map Rat.floor
  | machineFloat s => (numeral? s).map Rat.floor
  | text _ => none
  | v => v.toRational?.toOption.map Rat.floor

/-- Whether a value counts as true: numbers other than zero, texts and sequences that are
not empty, polynomials that are not zero, and every other object. -/
def isTrue : Value → Bool
  | integer n => n != 0
  | machineInteger n => n != 0
  | fraction r => r != 0
  | rational r => r != 0
  | float s => numeral? s != some 0
  | machineFloat s => numeral? s != some 0
  | boolean b => b
  | machineBoolean b => b
  | absent => false
  | text s => !s.isEmpty
  | bytes s => !s.isEmpty
  | list items => !items.isEmpty
  | tuple items => !items.isEmpty
  | polynomial p => !p.isZero
  | _ => true

/-! ### Sequences -/

/-- The items of a tuple. The result of a synthetic division and that of a root
factorization are tuples of their two fields. -/
def tupleItems? : Value → Option (List Value)
  | tuple items => some items
  | syntheticDivision d => some [polynomial d.quotient, rational d.remainder]
  | rootFactorization f => some [ofRoots f.roots, polynomial f.cofactor]
  | _ => none

/-- The items of a sequence; a text is the sequence of its characters. -/
def items? : Value → Option (List Value)
  | list items => some items
  | text s => some (s.toList.map fun c => text c.toString)
  | bytes s => some (s.toUTF8.toList.map fun b => natural b.toNat)
  | v => v.tupleItems?

/-- The items of a value that must be a sequence. -/
def toItems? (v : Value) : Except Error (List Value) :=
  match v.items? with
  | some items => .ok items
  | none => .error .unsupportedOperands

/-- The numbers in a sequence. -/
def toRationals? (v : Value) : Except Error (List Rat) := do
  (← v.toItems?).mapM toRational?

/-- The quotient of the two integers in a pair. -/
def toPairQuotient? (v : Value) : Except Error Rat := do
  match ← v.toItems? with
  | [a, b] => do
    let a ← a.toInteger?
    let b ← b.toInteger?
    Polynomial.ofPair? (a, b)
  | _ => .error .notAPair

/-! ### Polynomials and rational functions -/

/-- A new polynomial from a sequence of coefficients or from a polynomial, whose label it
inherits if it is given none. -/
def newPolynomial? (v : Value) (label : Option String) : Except Error Polynomial :=
  match v with
  | polynomial p => .ok (p.withLabel (label.or p.label))
  | text _ => .error .textAsCoefficients
  | bytes _ => .error .textAsCoefficients
  | v =>
    match v.items? with
    | none => .error (.notCoefficients v.shown)
    | some items => do Polynomial.ofCoefficients? (← items.mapM toRational?) label

/-- A new polynomial from a sequence of pairs of integers. -/
def polynomialOfPairs? (v : Value) (label : Option String) : Except Error Polynomial := do
  let cs ← (← v.toItems?).mapM toPairQuotient?
  Polynomial.ofCoefficients? cs label

/-- A polynomial in a place where a list or a tuple of coefficients and a number, as the
constant polynomial, are accepted too. -/
def asPolynomial? : Value → Except Error Polynomial
  | polynomial p => .ok p
  | list items => newPolynomial? (list items) none
  | v =>
    match v.tupleItems? with
    | some items => newPolynomial? (tuple items) none
    | none => do .ok (.const (← v.toRational?) none)

/-- A rational function in a place where everything that can be a polynomial is accepted
too. -/
def asFunction? : Value → Except Error RationalFunction
  | function r => .ok r
  | v => do .ok (.ofPolynomial (← v.asPolynomial?))

/-- The polynomial that stands beside another one in an operation: a polynomial, or a
number as a constant under the label of the other. -/
def asOperand? (label : Option String) : Value → Except Error Polynomial
  | polynomial p => .ok p
  | v => do .ok (.const (← v.toRational?) label)

/-- A new rational function from numerator and denominator. -/
def newFunction? (numerator denominator : Value) : Except Error RationalFunction := do
  let n ← numerator.asPolynomial?
  let d ← denominator.asPolynomial?
  RationalFunction.ofPolynomials? n d

/-- A new Taylor expansion from its center and a sequence of coefficients. -/
def newTaylor? (center coefficients : Value) (label : Option String) :
    Except Error TaylorExpansion := do
  let a ← center.toRational?
  let cs ← coefficients.toRationals?
  .ok ⟨a, cs, label⟩

/-- A new term of a decomposition. -/
def newSimpleFraction? (root power coefficient : Value) : Except Error SimpleFraction := do
  let r ← root.toRational?
  let c ← coefficient.toRational?
  match power.integer? with
  | some k => .ok ⟨r, k, c⟩
  | none => .error .unsupportedOperands

/-- The polynomial that a value is. -/
def toPolynomial? : Value → Except Error Polynomial
  | polynomial p => .ok p
  | _ => .error .missingMember

/-- The rational function that a value is. -/
def toFunction? : Value → Except Error RationalFunction
  | function r => .ok r
  | _ => .error .missingMember

/-- The Taylor expansion that a value is. -/
def toTaylor? : Value → Except Error TaylorExpansion
  | taylor t => .ok t
  | _ => .error .missingMember

/-- The term of a decomposition that a value is. -/
def toSimpleFraction? : Value → Except Error SimpleFraction
  | simpleFraction t => .ok t
  | _ => .error .missingMember

/-- The decomposition that a value is. -/
def toDecomposition? : Value → Except Error Decomposition
  | decomposition d => .ok d
  | _ => .error .missingMember

/-- The text that a value is. Bytes and symbolic values can be searched like a text, but not
for text. -/
def toString? : Value → Except Error String
  | text s => .ok s
  | bytes _ | rational _ | infinite | undefined | expression _ => .error .unsupportedOperands
  | _ => .error .missingMember

/-- The expression that a value is. A number is an expression too. -/
def toExpression? : Value → Except Error Expression
  | expression e => .ok e
  | v => do .ok (.number (← v.toRational?))

/-- A new decomposition from its quotient and a sequence of terms. -/
def newDecomposition? (quotient terms : Value) : Except Error Decomposition := do
  let q ← quotient.toPolynomial?
  let ts ← (← terms.toItems?).mapM toSimpleFraction?
  .ok ⟨q, ts⟩

end ExactAlgebra.Value
