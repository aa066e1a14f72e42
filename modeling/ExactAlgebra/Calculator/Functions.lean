import ExactAlgebra.Calculator.Polynomials
import ExactAlgebra.PartialFractions.Decompose
import ExactAlgebra.RationalFunction.Reader

/-!
The operations on rational functions and on their partial fractions.
-/

namespace ExactAlgebra.Calculator

open Value

/-- A rational function as a value, if there is one. -/
def functionResult (r : Except Error RationalFunction) : Except Error Value := do
  .ok (function (← r))

/-- Numbers as a value, if there are some. -/
def numbersResult (rs : Except Error (List Rat)) : Except Error Value := do
  .ok (list ((← rs).map rational))

/-! ### Rational functions -/

/-- The rational function with numerator and denominator given by pairs of integers. -/
def functionOfPairs? (a : Arguments) : Except Error RationalFunction := do
  let label ← a.label? 2
  let n ← polynomialOfPairs? (← a.at? 0) label
  let d ← polynomialOfPairs? (← a.at? 1) label
  RationalFunction.ofPolynomials? n d

/-- The operations on rational functions. -/
def functionOperations : List (String × Operation) :=
  [("rf.new", fun a => functionResult do
      newFunction? (← a.at? 0) (a.optional 1 "denominator" (.integer 1))),
   ("rf.from_string", fun a => functionResult do
      RationalFunction.ofText? (← (← a.at? 0).toString?)),
   ("rf.from_pairs", fun a => functionResult (functionOfPairs? a)),
   ("rf.numerator", fieldOperation "numerator"),
   ("rf.denominator", fieldOperation "denominator"),
   ("rf.is_zero", fieldOperation "is_zero"),
   ("rf.is_proper", fieldOperation "is_proper"),
   ("rf.to_pairs", fun a => do (← a.at? 0).pairs?),
   ("rf.reciprocal", fun a => functionResult do (← a.function? 0).reciprocal?),
   ("rf.simplify", fun a => do (← a.at? 0).simplified?),
   ("rf.evaluate", evaluation),
   ("rf.derivative", differentiation),
   ("rf.poles", fun a => numbersResult do (← a.function? 0).poles?),
   ("rf.zeros", fun a => numbersResult do (← a.function? 0).zeros?)]

/-! ### Partial fractions -/

/-- The partial fractions of a rational function. -/
def partialFractions? (a : Arguments) : Except Error Decomposition := do
  let r ← a.function? 0
  a.withinLimit 1 "limit" Polynomial.defaultMultiplicitySteps (· == .multiplicities)
    r.partialFractions

/-- What stands for the variable: the text of the value at the second place, the default
variable if it is missing. -/
def variableText (a : Arguments) : String :=
  (a.optional 1 "variable" (.text defaultVariable)).toText

/-- The operations on partial fractions. -/
def decompositionOperations : List (String × Operation) :=
  [("partial_fractions", fun a => do .ok (decomposition (← partialFractions? a))),
   ("term.format_term", fun a => do
      let t ← a.simpleFraction? 0
      .ok (text (t.toText (variableText a)))),
   ("term.as_rational_function", fun a => functionResult do
      let t ← a.simpleFraction? 0
      .ok (t.toRationalFunction (← a.label? 1))),
   ("term.evaluate", evaluation),
   ("pf.to_rational_function", fun a => functionResult do
      .ok (← a.decomposition? 0).toRationalFunction),
   ("pf.evaluate", evaluation)]

end ExactAlgebra.Calculator
