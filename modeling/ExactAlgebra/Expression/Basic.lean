import ExactAlgebra.Polynomial.Basic

/-!
Expressions: trees of sums, products, quotients, powers and sines over rational numbers,
symbols and the constant π.

* `eval?` is the value of an expression in one symbol at a rational point, where it is a
  rational number.
* `ratio` is a quotient of integers as an expression.
* `Polynomial.toExpression` writes a polynomial as a sum of monomials.
-/

namespace ExactAlgebra

/-- An expression. -/
inductive Expression
  | number (r : Rat)
  | symbol (name : String)
  | pi
  | add (terms : List Expression)
  | mul (factors : List Expression)
  | sub (a b : Expression)
  | div (a b : Expression)
  | pow (base exponent : Expression)
  | sin (argument : Expression)

/-- The integer power of a number; a negative power of zero does not exist. -/
def rationalPow? (b : Rat) (e : Rat) : Option Rat :=
  if e.den ≠ 1 then none
  else if 0 ≤ e.num then some (b ^ e.num.toNat)
  else if b = 0 then none
  else some (1 / b ^ (-e.num).toNat)

namespace Expression

/-- The quotient of two integers: a number, or a quotient by zero, which is none. -/
def ratio (p q : Int) : Expression :=
  if q = 0 then div (number p) (number 0) else number ((p : Rat) / (q : Rat))

mutual

/-- The value of an expression with the number `x` for the symbol `name`. Other symbols,
π and sines have no value, and neither has a quotient by zero. -/
def eval? (name : String) (x : Rat) : Expression → Option Rat
  | number r => some r
  | symbol s => if s = name then some x else none
  | pi => none
  | add terms => evalSum? name x terms
  | mul factors => evalProduct? name x factors
  | sub a b => do some ((← eval? name x a) - (← eval? name x b))
  | div a b => do
    let a ← eval? name x a
    let b ← eval? name x b
    if b = 0 then none else some (a / b)
  | pow base exponent => do rationalPow? (← eval? name x base) (← eval? name x exponent)
  | sin _ => none

/-- The sum of the values of expressions. -/
def evalSum? (name : String) (x : Rat) : List Expression → Option Rat
  | [] => some 0
  | e :: es => do some ((← eval? name x e) + (← evalSum? name x es))

/-- The product of the values of expressions. -/
def evalProduct? (name : String) (x : Rat) : List Expression → Option Rat
  | [] => some 1
  | e :: es => do some ((← eval? name x e) * (← evalProduct? name x es))

end

/-- The monomial `c * name ^ n`. -/
def monomial (name : String) (c : Rat) (n : Nat) : Expression :=
  mul [number c, pow (symbol name) (number n)]

end Expression

/-- A polynomial as the sum of its monomials in the given symbol. -/
def Polynomial.toExpression (p : Polynomial) (name : String) : Expression :=
  .add (p.coefficients.zipIdx.map fun c => .monomial name c.1 c.2)

end ExactAlgebra
