import ExactAlgebra.Value.Coercion

/-!
Paths into values: the fields of records and the items of sequences.

* `field?` is a field by its name, `item?` an item by its index, where negative indices
  count from the end.
* `follow?` walks a path.
-/

namespace ExactAlgebra

/-- A step of a path. -/
inductive PathStep
  | field (name : String)
  | index (i : Int)

namespace Value

/-- A list of rational numbers as a value that cannot change. -/
def rationals (rs : List Rat) : Value := tuple (rs.map rational)

/-- A list of natural numbers as a value that cannot change. -/
def naturals (ns : List Nat) : Value := tuple (ns.map natural)

/-- A field of a polynomial. -/
def polynomialField? (p : Polynomial) : String → Option Value
  | "coefficients" => some (rationals p.coefficients)
  | "label" => some (ofText? p.label)
  | "variable" => some (text p.variableName)
  | "degree" => some (integer p.degree)
  | "is_zero" => some (boolean p.isZero)
  | "leading_coefficient" => some (rational p.leadingCoefficient)
  | "is_monic" => some (boolean p.isMonic)
  | _ => none

/-- A field of a rational function. -/
def functionField? (r : RationalFunction) : String → Option Value
  | "numerator" => some (polynomial r.numerator)
  | "denominator" => some (polynomial r.denominator)
  | "is_zero" => some (boolean r.isZero)
  | "is_proper" => some (boolean r.isProper)
  | _ => none

/-- A field of a number. -/
def numberField? (r : Rat) : String → Option Value
  | "numerator" => some (integer r.num)
  | "denominator" => some (natural r.den)
  | _ => none

/-- A field of a computed rational number. -/
def rationalField? (r : Rat) : String → Option Value
  | "p" => some (integer r.num)
  | "q" => some (natural r.den)
  | "is_zero" => some (boolean (r = 0))
  | name => numberField? r name

/-- A field of a value. -/
def field? (name : String) : Value → Option Value
  | polynomial p => polynomialField? p name
  | function r => functionField? r name
  | integer n => numberField? n name
  | machineInteger n => numberField? n name
  | boolean b => numberField? (if b then 1 else 0) name
  | fraction r => numberField? r name
  | rational r => rationalField? r name
  | taylor t =>
    match name with
    | "center" => some (rational t.center)
    | "coefficients" => some (rationals t.coefficients)
    | "label" => some (ofText? t.label)
    | _ => none
  | simpleFraction t =>
    match name with
    | "root" => some (rational t.root)
    | "power" => some (integer t.power)
    | "coefficient" => some (rational t.coefficient)
    | _ => none
  | decomposition d =>
    match name with
    | "quotient" => some (polynomial d.quotient)
    | "terms" => some (tuple (d.terms.map simpleFraction))
    | _ => none
  | syntheticDivision d =>
    match name with
    | "quotient" => some (polynomial d.quotient)
    | "remainder" => some (rational d.remainder)
    | _ => none
  | rootFactorization f =>
    match name with
    | "roots" => some (ofRoots f.roots)
    | "cofactor" => some (polynomial f.cofactor)
    | _ => none
  | signReport r =>
    match name with
    | "positive_changes" => some (natural r.positiveChanges)
    | "negative_changes" => some (natural r.negativeChanges)
    | "possible_positive" => some (naturals r.possiblePositive)
    | "possible_negative" => some (naturals r.possibleNegative)
    | _ => none
  | _ => none

/-- An item of a sequence. -/
def item? (i : Int) (v : Value) : Option Value := do
  let items ← v.items?
  if 0 ≤ i then items[i.toNat]?
  else if -i ≤ items.length then items[items.length - (-i).toNat]?
  else none

/-- The value at the end of a path. -/
def follow? : List PathStep → Value → Option Value
  | [], v => some v
  | .field name :: path, v => (v.field? name).bind (follow? path)
  | .index i :: path, v => (v.item? i).bind (follow? path)

end Value

end ExactAlgebra
