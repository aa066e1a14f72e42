import ExactAlgebra.Expression.Basic

/-!
Laurent polynomials: polynomials in one symbol and its inverse. They are what an
expression in one symbol denotes as long as nothing but single powers of the symbol is
inverted.

* `Laurent` is a coefficient list together with a shift of the powers downwards.
* `Expression.laurent?` expands an expression.
* `Laurent.toPolynomial?` gives back the coefficients when no negative power is left.
-/

namespace ExactAlgebra

open Coefficients

/-- The sum `c₀ x ^ (-shift) + c₁ x ^ (1 - shift) + …`. -/
structure Laurent where
  shift : Nat
  coefficients : List Rat

namespace Laurent

/-- A constant. -/
def const (c : Rat) : Laurent := ⟨0, [c]⟩

/-- The symbol itself. -/
def generator : Laurent := ⟨0, [0, 1]⟩

/-- The coefficients from the power `-s` on, for an `s` not below the shift. -/
def coefficientsFrom (a : Laurent) (s : Nat) : List Rat :=
  List.replicate (s - a.shift) 0 ++ a.coefficients

/-- The sum. -/
def add (a b : Laurent) : Laurent :=
  let s := max a.shift b.shift
  ⟨s, Coefficients.add (a.coefficientsFrom s) (b.coefficientsFrom s)⟩

/-- The product. -/
def mul (a b : Laurent) : Laurent :=
  ⟨a.shift + b.shift, Coefficients.mul a.coefficients b.coefficients⟩

/-- The multiple by a number. -/
def scale (c : Rat) (a : Laurent) : Laurent := ⟨a.shift, Coefficients.scale c a.coefficients⟩

/-- The product of a number of copies. -/
def copies (a : Laurent) : Nat → Laurent
  | 0 => const 1
  | n + 1 => mul (copies a n) a

/-- The power with a natural exponent. That of a single power of the symbol is a single
power too. -/
def pow (a : Laurent) (n : Nat) : Laurent :=
  let low := (a.coefficients.takeWhile (· = 0)).length
  match a.coefficients.drop low with
  | [c] => ⟨a.shift * n, List.replicate (low * n) 0 ++ [c ^ n]⟩
  | _ => copies a n

/-- The inverse of a single nonzero power of the symbol. -/
def inverse? (a : Laurent) : Option Laurent :=
  let cs := trim a.coefficients
  let low := (cs.takeWhile (· = 0)).length
  match cs.drop low with
  | [c] =>
    if low ≤ a.shift then some ⟨0, List.replicate (a.shift - low) 0 ++ [1 / c]⟩
    else some ⟨low - a.shift, [1 / c]⟩
  | _ => none

/-- The power with an integer exponent. -/
def intPow? (a : Laurent) (n : Int) : Option Laurent :=
  if 0 ≤ n then some (a.pow n.toNat) else do some ((← a.inverse?).pow (-n).toNat)

/-- The coefficients of a polynomial, if no negative power has a coefficient. -/
def toPolynomial? (a : Laurent) : Option (List Rat) :=
  if (a.coefficients.take a.shift).all (· = 0) then some (a.coefficients.drop a.shift) else none

/-- The number that a constant is. -/
def toConstant? (a : Laurent) : Option Rat := do
  match trim (← a.toPolynomial?) with
  | [] => some 0
  | [c] => some c
  | _ => none

/-- The integer that a constant is. -/
def toInteger? (a : Laurent) : Option Int := do
  let c ← a.toConstant?
  if c.den = 1 then some c.num else none

end Laurent

namespace Expression

mutual

/-- The expansion of an expression in the symbol `name`. A quotient is expanded when its
divisor is a single power of the symbol, a power when its exponent is an integer; other
symbols, π and sines have no expansion. -/
def laurent? (name : String) : Expression → Option Laurent
  | number r => some (.const r)
  | symbol s => if s = name then some .generator else none
  | pi => none
  | add terms => laurentSum? name terms
  | mul factors => laurentProduct? name factors
  | sub a b => do some ((← laurent? name a).add ((← laurent? name b).scale (-1)))
  | div a b => do some ((← laurent? name a).mul (← (← laurent? name b).inverse?))
  | pow base exponent => do
    let base ← laurent? name base
    base.intPow? (← (← laurent? name exponent).toInteger?)
  | sin _ => none

/-- The sum of the expansions of expressions. -/
def laurentSum? (name : String) : List Expression → Option Laurent
  | [] => some (.const 0)
  | e :: es => do some ((← laurent? name e).add (← laurentSum? name es))

/-- The product of the expansions of expressions. -/
def laurentProduct? (name : String) : List Expression → Option Laurent
  | [] => some (.const 1)
  | e :: es => do some ((← laurent? name e).mul (← laurentProduct? name es))

end

end Expression

end ExactAlgebra
