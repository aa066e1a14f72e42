import ExactAlgebra.Calculator.Functions
import ExactAlgebra.Calculator.Literal
import ExactAlgebra.Calculator.Numbers

/-!
Requests and sessions.

* `Request` is an operation by its name together with literals for its arguments.
* `Request.answer?` evaluates the arguments from left to right and performs the operation.
* `run` answers a list of requests, each of which may refer to the results of those
  before it. A request that fails does not stop the others.
-/

namespace ExactAlgebra.Calculator

/-- All operations with their names. -/
def operations : List (String × Operation) :=
  numberOperations ++ operatorOperations ++ polynomialConstructors ++ polynomialFields
    ++ polynomialMethods ++ rootOperations ++ expressionOperations ++ functionOperations
    ++ decompositionOperations

/-- An operation that is called for. -/
structure Request where
  operation : String
  positional : List Literal
  named : List (String × Literal)

/-- The values of the named arguments. -/
def namedValues? (results : Results) : List (String × Literal) →
    Except Error (List (String × Value))
  | [] => .ok []
  | (name, l) :: rest => do
    let v ← l.eval? results
    let vs ← namedValues? results rest
    .ok ((name, v) :: vs)

/-- The answer to a request after the given results. -/
def Request.answer? (results : Results) (r : Request) : Except Error Value := do
  let positional ← Literal.evalAll? results r.positional
  let named ← namedValues? results r.named
  match operations.lookup r.operation with
  | some operation => operation ⟨positional, named⟩
  | none => .error .unsupportedOperands

/-- The answers to the requests that follow those with the given results. -/
def runAfter (results : Results) : List Request → List (Except Error Value)
  | [] => []
  | r :: rs =>
    let answer := r.answer? results
    answer :: runAfter (results ++ [answer.toOption]) rs

/-- The answers to the requests of a session. -/
def run (requests : List Request) : List (Except Error Value) := runAfter [] requests

end ExactAlgebra.Calculator
