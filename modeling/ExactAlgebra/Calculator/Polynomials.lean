import ExactAlgebra.Calculator.Arguments
import ExactAlgebra.Polynomial.Calculus
import ExactAlgebra.Polynomial.Reader
import ExactAlgebra.Roots.Bound
import ExactAlgebra.Value.Member
import ExactAlgebra.Value.Operators

/-!
The operations on polynomials: constructors, accessors, arithmetic, roots, Taylor
expansions and expressions.
-/

namespace ExactAlgebra.Calculator

open Value

/-- A polynomial as a value, if there is one. -/
def polynomialResult (p : Except Error Polynomial) : Except Error Value := do
  .ok (polynomial (← p))

/-- A field of the object at the first place. -/
def fieldOperation (name : String) : Operation := fun a => do
  match (← a.at? 0).field? name with
  | some v => .ok v
  | none => .error .missingMember

/-! ### Constructors -/

/-- The monomial of a degree with a coefficient, one if it is missing. -/
def monomial? (a : Arguments) : Except Error Polynomial := do
  let degree ← (← a.at? 0).toOrder? .monomial
  let c ← (a.optional 1 "coefficient" (.integer 1)).toRational?
  .ok (.monomial degree c (← a.label? 2))

/-- The polynomial with given roots. -/
def ofRoots? (a : Arguments) : Except Error Polynomial := do
  let roots ← (← a.at? 0).toRationals?
  .ok (.ofRoots roots (← a.label? 1))

/-- The constructors of polynomials. -/
def polynomialConstructors : List (String × Operation) :=
  [("poly.new", fun a => polynomialResult do newPolynomial? (← a.at? 0) (← a.label? 1)),
   ("poly.zero", fun a => polynomialResult do .ok (.zero (← a.label? 0))),
   ("poly.one", fun a => polynomialResult do .ok (.one (← a.label? 0))),
   ("poly.monomial", fun a => polynomialResult (monomial? a)),
   ("poly.from_roots", fun a => polynomialResult (ofRoots? a)),
   ("poly.from_pairs", fun a => polynomialResult do
      polynomialOfPairs? (← a.at? 0) (← a.label? 1)),
   ("poly.from_string", fun a => polynomialResult do
      Polynomial.ofText? (← (← a.at? 0).toString?)),
   ("poly.extract_coefficients", fun a => do
      let (cs, name) ← Polynomial.coefficientsOfText? (← (← a.at? 0).toString?)
      .ok (tuple [list (cs.map rational), ofText? name]))]

/-! ### Accessors and methods -/

/-- The fields of polynomials. -/
def polynomialFields : List (String × Operation) :=
  [("poly.coefficients", fieldOperation "coefficients"),
   ("poly.label", fieldOperation "label"),
   ("poly.variable", fieldOperation "variable"),
   ("poly.degree", fieldOperation "degree"),
   ("poly.is_zero", fieldOperation "is_zero"),
   ("poly.leading_coefficient", fieldOperation "leading_coefficient"),
   ("poly.is_monic", fieldOperation "is_monic")]

/-- A polynomial and a number, combined. -/
def atPoint (f : Polynomial → Rat → Value) : Operation := fun a => do
  let p ← a.polynomial? 0
  .ok (f p (← a.rational? 1))

/-- The value of the object at the first place at the point at the second. -/
def evaluation : Operation := fun a => do
  let f ← (← a.at? 0).pointFunction?
  f (← a.rational? 1)

/-- The derivative of an order, one if it is missing. -/
def differentiation : Operation := fun a => do
  let derivatives ← (← a.at? 0).derivatives?
  .ok (derivatives (← a.order? 1 .derivative 1))

/-- The antiderivative with a value at zero, zero if it is missing. -/
def integral? (a : Arguments) : Except Error Polynomial := do
  let p ← a.polynomial? 0
  .ok (p.integral (← (a.optional 1 "c" (.integer 0)).toRational?))

/-- The methods of polynomials. -/
def polynomialMethods : List (String × Operation) :=
  [("poly.coefficient", fun a => do
      let p ← a.polynomial? 0
      .ok (rational (p.coefficient (← (← a.at? 1).toOrder? .coefficient)))),
   ("poly.to_pairs", fun a => do (← a.at? 0).pairs?),
   ("poly.scale", atPoint fun p c => polynomial (p.scale c)),
   ("poly.monic", fun a => do .ok (polynomial (← a.polynomial? 0).monic)),
   ("poly.primitive", fun a => do .ok (polynomial (← a.polynomial? 0).primitive)),
   ("poly.evaluate", evaluation),
   ("poly.horner_steps", atPoint fun p x => list ((p.hornerSteps x).map rational)),
   ("poly.derivative", differentiation),
   ("poly.integral", fun a => polynomialResult (integral? a)),
   ("poly.compose", fun a => polynomialResult do compose? (← a.polynomial? 0) (← a.at? 1)),
   ("poly.divmod", fun a => do divMod (polynomial (← a.polynomial? 0)) (← a.at? 1)),
   ("poly.gcd", fun a => polynomialResult do polynomialGcd? (← a.polynomial? 0) (← a.at? 1)),
   ("poly.format_polynomial", fun a => do .ok (text (← a.polynomial? 0).toText)),
   ("polynomial_gcd", fun a => polynomialResult (polynomialGcdAll? a.positional))]

/-! ### Roots and Taylor expansions -/

/-- The rational roots of a polynomial, with denominators cleared unless this is refused. -/
def rationalRoots? (a : Arguments) : Except Error (List Rat) := do
  let p ← (← a.at? 0).rootSubject? .rootsOfZero
  let clear := (a.optional 1 "clear_denominators" (.boolean true)).isTrue
  a.withinLimit 2 "candidate_limit" Polynomial.defaultRootCandidates (· == .rationalRoots)
    (p.rationalRoots clear)

/-- The rational roots of a polynomial with their multiplicities. -/
def rootMultiplicities? (a : Arguments) : Except Error RootFactorization := do
  let p ← (← a.at? 0).rootSubject? .rootsOfZero
  a.withinLimit 1 "limit" Polynomial.defaultMultiplicitySteps (· == .multiplicities)
    p.rootMultiplicities

/-- An operation on an object at a point, where the point is read first. -/
def aboutPoint (f : Value → Rat → Except Error Value) : Operation := fun a => do
  let v ← a.at? 0
  f v (← a.rational? 1)

/-- The operations on the roots of polynomials and on Taylor expansions. -/
def rootOperations : List (String × Operation) :=
  [("rational_roots", fun a => do .ok (list ((← rationalRoots? a).map rational))),
   ("root_multiplicities", fun a => do .ok (rootFactorization (← rootMultiplicities? a))),
   ("sign_changes", fun a => do .ok (natural (← (← a.at? 0).signChanges?))),
   ("descartes_rule_of_signs", fun a => do .ok (signReport (← (← a.at? 0).ruleOfSigns?))),
   ("cauchy_bound", fun a => do
      .ok (rational (← (← (← a.at? 0).rootSubject? .boundOfZero).cauchyBound))),
   ("synthetic_divide", aboutPoint fun v c => do
      .ok (syntheticDivision (← v.syntheticDivision? c))),
   ("rebase", aboutPoint fun v c => do .ok (taylor (← v.rebased? c))),
   ("taylor.evaluate", evaluation),
   ("taylor.evaluate_shifted", fun a => do
      let t ← a.taylor? 0
      .ok (rational (t.evalShifted (← a.rational? 1)))),
   ("taylor.shifted_polynomial", fun a => polynomialResult do
      (← a.taylor? 0).shiftedPolynomial?),
   ("taylor.to_polynomial", fun a => polynomialResult do (← a.taylor? 0).toPolynomial?)]

/-! ### Expressions -/

/-- The name of a symbol at a place, if it is given. -/
def symbol? (a : Arguments) (i : Nat) : Except Error (Option String) :=
  (a.optional i "symbol" .absent).toLabel?

/-- The value that an object has as an expression in a symbol at a point; without one it is
undefined. -/
def expressionAt : Operation := fun a => do
  let e ← (← a.at? 0).expressionIn?
  let name := (← symbol? a 1).getD defaultVariable
  match (e name).eval? name (← a.rational? 2) with
  | some r => .ok (rational r)
  | none => .ok undefined

/-- The operations on expressions. -/
def expressionOperations : List (String × Operation) :=
  [("poly.from_expr", fun a => polynomialResult do
      (← (← a.at? 0).toExpression?).toPolynomial? (← symbol? a 1)),
   ("poly.as_expr_at", expressionAt),
   ("rf.as_expr_at", expressionAt),
   ("poly.expr_round_trip", fun a => polynomialResult do
      let v ← a.at? 0
      let name ← match ← symbol? a 1 with
        | some name => .ok name
        | none => v.variableName?
      ((← v.expressionIn?) name).toPolynomial? none)]

end ExactAlgebra.Calculator
