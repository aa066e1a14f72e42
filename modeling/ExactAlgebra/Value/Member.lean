import ExactAlgebra.Expression.ToPolynomial
import ExactAlgebra.PartialFractions.Decompose
import ExactAlgebra.Value.Path

/-!
Members that objects of several kinds have in common.

An operation that needs a member of an object takes every object that has it, and refuses
the others for want of the member.

* `pointFunction?`: polynomials, rational functions, Taylor expansions, decompositions and
  their terms have a value at a point.
* `derivatives?`, `pairs?`: polynomials and rational functions have derivatives and can be
  written as pairs of integers.
* `signChanges?`, `ruleOfSigns?`, `syntheticDivision?`, `rebased?`: polynomials and Taylor
  expansions have coefficients and a label. Where only these matter, an expansion stands for
  the polynomial in the distance from its center.
* `rootSubject?`: the roots and the root bound are those of a polynomial, but any object that
  is zero is refused like the zero polynomial.
* `expressionIn?`: polynomials, rational functions and numbers are expressions in a symbol.
-/

namespace ExactAlgebra

/-- The polynomial in the distance from the center, where an expansion without coefficients
is zero. -/
def TaylorExpansion.inDistance (t : TaylorExpansion) : Polynomial := .ofList t.coefficients t.label

/-- The polynomial in the distance from the center, expanded about `a`, with as many
coefficients as the expansion has. -/
def TaylorExpansion.rebase (t : TaylorExpansion) (a : Rat) : TaylorExpansion :=
  ⟨a, Polynomial.taylorCoefficients a t.coefficients.length t.inDistance, t.label⟩

namespace Value

/-! ### Values, derivatives and pairs -/

/-- The values of an object at rational points. -/
def pointFunction? : Value → Except Error (Rat → Except Error Value)
  | polynomial p => .ok fun x => .ok (rational (p.eval x))
  | function r => .ok fun x => do .ok (rational (← r.eval? x))
  | taylor t => .ok fun x => .ok (rational (t.eval x))
  | simpleFraction t => .ok fun x => .ok (ofExtended (t.eval x))
  | decomposition d => .ok fun x => .ok (ofExtended (d.eval x))
  | _ => .error .missingMember

/-- The derivatives of an object by their orders. -/
def derivatives? : Value → Except Error (Nat → Value)
  | polynomial p => .ok fun n => polynomial (p.derivative n)
  | function r => .ok fun n => function (r.derivative n)
  | _ => .error .missingMember

/-- The coefficients of a polynomial as pairs of integers. -/
def coefficientPairs (p : Polynomial) : Value := list (p.toPairs.map ofPair)

/-- The coefficients of an object as pairs of integers; a rational function has those of its
numerator and those of its denominator. -/
def pairs? : Value → Except Error Value
  | polynomial p => .ok (coefficientPairs p)
  | function r => .ok (tuple [coefficientPairs r.numerator, coefficientPairs r.denominator])
  | _ => .error .missingMember

/-- The simplest form of a rational function or of a number, which has it already. -/
def simplified? : Value → Except Error Value
  | function r => .ok (function r.simplify)
  | rational r => .ok (rational r)
  | _ => .error .missingMember

/-! ### Coefficients -/

/-- The polynomial with the coefficients and the label of an object. -/
def withCoefficients? : Value → Except Error Polynomial
  | polynomial p => .ok p
  | taylor t => .ok t.inDistance
  | _ => .error .missingMember

/-- The number of sign changes between consecutive nonzero coefficients. -/
def signChanges? (v : Value) : Except Error Nat := do .ok (← v.withCoefficients?).signChanges

/-- The rule of signs for the coefficients of an object, of which there must be one. -/
def ruleOfSigns? : Value → Except Error SignReport
  | taylor t => do .ok (← t.shiftedPolynomial?).ruleOfSigns
  | v => do .ok (← v.withCoefficients?).ruleOfSigns

/-- The division of an object with coefficients by `x - c`. There must be a coefficient to
begin with. -/
def syntheticDivision? (v : Value) (c : Rat) : Except Error SyntheticDivision :=
  match v with
  | taylor ⟨_, [], _⟩ => .error .missingItem
  | v => do .ok ((← v.withCoefficients?).syntheticDivide c)

/-- The expansion of an object with coefficients about `a`. -/
def rebased? (v : Value) (a : Rat) : Except Error TaylorExpansion :=
  match v with
  | polynomial p => .ok (p.rebase a)
  | taylor t => .ok (t.rebase a)
  | _ => .error .missingMember

/-! ### Roots and expressions -/

/-- The polynomial whose roots are asked for. The given cause is that for which zero is
refused. -/
def rootSubject? (zeroCause : Error) : Value → Except Error Polynomial
  | polynomial p => .ok p
  | v =>
    match v.field? "is_zero" with
    | some (boolean true) => .error zeroCause
    | _ => .error .missingMember

/-- An object as an expression in a symbol. -/
def expressionIn? : Value → Except Error (String → Expression)
  | polynomial p => .ok p.toExpression
  | function r => .ok fun name =>
    .div (r.numerator.toExpression name) (r.denominator.toExpression name)
  | rational r => .ok fun _ => .number r
  | expression e => .ok fun _ => e
  | _ => .error .missingMember

/-- The variable that an object is written with. -/
def variableName? (v : Value) : Except Error String :=
  match v with
  | polynomial p => .ok p.variableName
  | _ => .error .missingMember

end Value

end ExactAlgebra
