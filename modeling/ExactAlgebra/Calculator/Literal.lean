import ExactAlgebra.Value.Path

/-!
Literals: values as they are written down, before any object has been built.

A literal is evaluated from left to right and from the inside out, so that the first
error in this order is the outcome. It may refer to the results of earlier steps.
-/

namespace ExactAlgebra.Calculator

/-- The results of the steps made so far; a step that failed has none. -/
abbrev Results := List (Option Value)

/-- A value as it is written down. -/
inductive Literal
  | value (v : Value)
  | list (items : List Literal)
  | tuple (items : List Literal)
  | polynomial (coefficients label : Literal)
  /-- A rational function by its numerator and, perhaps, its denominator. -/
  | function (parts : List Literal)
  /-- A Taylor expansion by its center, its coefficients and, perhaps, its label. -/
  | taylor (parts : List Literal)
  /-- A term of a decomposition by its root, its power and its coefficient. -/
  | simpleFraction (parts : List Literal)
  /-- A decomposition by its quotient and its terms. -/
  | decomposition (parts : List Literal)
  /-- The result of a step, and a path into it. -/
  | reference (step : Int) (path : List PathStep)

/-- The result that a reference leads to. -/
def Results.resolve? (results : Results) (step : Int) (path : List PathStep) :
    Except Error Value :=
  if step < 0 then .error .brokenReference
  else match results[step.toNat]?.join.bind (Value.follow? path) with
    | some v => .ok v
    | none => .error .brokenReference

/-- A rational function from its evaluated parts; the denominator may be missing and is
then one. -/
def buildFunction? : List Value → Except Error Value
  | [n] => do .ok (.function (.ofPolynomial (← n.asPolynomial?)))
  | [n, d] => do .ok (.function (← Value.newFunction? n d))
  | _ => .error .unsupportedOperands

/-- A Taylor expansion from its evaluated parts. -/
def buildTaylor? : List Value → Except Error Value
  | [a, cs] => do .ok (.taylor (← Value.newTaylor? a cs none))
  | [a, cs, label] => do .ok (.taylor (← Value.newTaylor? a cs (← label.toLabel?)))
  | _ => .error .unsupportedOperands

/-- A term of a decomposition from its evaluated parts. -/
def buildSimpleFraction? : List Value → Except Error Value
  | [r, k, c] => do .ok (.simpleFraction (← Value.newSimpleFraction? r k c))
  | _ => .error .unsupportedOperands

/-- A decomposition from its evaluated parts. -/
def buildDecomposition? : List Value → Except Error Value
  | [q, ts] => do .ok (.decomposition (← Value.newDecomposition? q ts))
  | _ => .error .unsupportedOperands

mutual

/-- The value of a literal. -/
def Literal.eval? (results : Results) : Literal → Except Error Value
  | .value v => .ok v
  | .list items => do .ok (.list (← Literal.evalAll? results items))
  | .tuple items => do .ok (.tuple (← Literal.evalAll? results items))
  | .polynomial coefficients label => do
    let cs ← Literal.eval? results coefficients
    let label ← Literal.eval? results label
    .ok (.polynomial (← Value.newPolynomial? cs (← label.toLabel?)))
  | .function parts => do buildFunction? (← Literal.evalAll? results parts)
  | .taylor parts => do buildTaylor? (← Literal.evalAll? results parts)
  | .simpleFraction parts => do buildSimpleFraction? (← Literal.evalAll? results parts)
  | .decomposition parts => do buildDecomposition? (← Literal.evalAll? results parts)
  | .reference step path => results.resolve? step path

/-- The values of literals, up to the first that fails. -/
def Literal.evalAll? (results : Results) : List Literal → Except Error (List Value)
  | [] => .ok []
  | l :: ls => do
    let v ← Literal.eval? results l
    let vs ← Literal.evalAll? results ls
    .ok (v :: vs)

end

end ExactAlgebra.Calculator
