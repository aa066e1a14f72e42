import ExactAlgebra.Expression.Evaluation
import ExactAlgebra.Expression.Laurent
import ExactAlgebra.Expression.Univariate

/-!
Expressions read as polynomials.

* `freeSymbol?` is the one symbol of an expression that does not cancel.
* `toPolynomial?` reads an expression as a polynomial in a symbol. An expression that is a
  polynomial as it stands is expanded at once, any other after it has been evaluated.
-/

namespace ExactAlgebra.Expression

/-- The symbol that is left when an expression is evaluated, the default variable if there
is none. -/
def freeSymbol? (e : Expression) : Except Error String :=
  match e.toForm.symbols with
  | [] => .ok defaultVariable
  | name :: names => if names.all (· = name) then .ok name else .error .notUnivariate

/-- The coefficients of an expression as a polynomial in the given symbol. -/
def coefficientsIn? (e : Expression) (name : String) : Option (List Rat) :=
  (e.laurent? name).bind Laurent.toPolynomial? <|> e.toForm.coefficientsIn? name

/-- An expression as a polynomial, labelled by the given symbol or else by the one free
symbol. -/
def toPolynomial? (e : Expression) (name? : Option String) : Except Error Polynomial := do
  let name ← match name? with
    | some name => .ok name
    | none => e.freeSymbol?
  match e.coefficientsIn? name with
  | some cs => .ok (.ofList cs (some name))
  | none => .error (.notPolynomial name)

end ExactAlgebra.Expression
