import ExactAlgebra.Expression.Angle

/-!
The evaluation of an expression: its form, with sums, products, powers and sines evaluated
from the inside to the outside and no product of sums multiplied out.

* `Expression.toForm` is the form of an expression.
-/

namespace ExactAlgebra.Expression

mutual

/-- The form of an expression. -/
def toForm : Expression → Form
  | number r => .number r
  | symbol name => .symbol name
  | pi => .pi
  | add terms => .addTerms (toForms terms)
  | mul factors => .mulFactors (toForms factors)
  | sub a b => (toForm a).add (toForm b).negate
  | div a b => (toForm a).div (toForm b)
  | pow base exponent => (toForm base).pow (toForm exponent)
  | sin argument => (toForm argument).sine

/-- The forms of expressions. -/
def toForms : List Expression → List Form
  | [] => []
  | e :: es => toForm e :: toForms es

end

end ExactAlgebra.Expression
