import ExactAlgebra.Calculator.Arguments
import ExactAlgebra.Integer.Divisors
import ExactAlgebra.Integer.Prime
import ExactAlgebra.Value.Equality
import ExactAlgebra.Value.Operators

/-!
The operations on numbers, and the operators, which act on values of all types.
-/

namespace ExactAlgebra.Calculator

open Value

/-- The integers in a list of values. -/
def integers? (vs : List Value) : Except Error (List Int) := vs.mapM toInteger?

/-- The divisors of the integer at the first place, within a limit. -/
def divisorsOf? (a : Arguments) : Except Error (List Nat) := do
  let n ← a.integer? 0
  a.withinLimit 1 "limit" Integer.defaultTrialDivisions (fun _ => true) (Integer.divisors n)

/-- The greatest common divisor and the Bezout coefficients of two integers. -/
def bezout? (a : Arguments) : Except Error Integer.Bezout := do
  let x ← a.integer? 0
  .ok (Integer.bezout x (← a.integer? 1))

/-- The inverse of the first integer modulo the second. -/
def modularInverse? (a : Arguments) : Except Error Int := do
  let x ← a.integer? 0
  Integer.modularInverse x (← a.integer? 1)

/-- An operator on the first two arguments. -/
def binary (op : Value → Value → Except Error Value) : Operation := fun a => do
  op (← a.at? 0) (← a.at? 1)

/-- The operations on numbers. -/
def numberOperations : List (String × Operation) :=
  [("value", fun a => a.at? 0),
   ("as_rational", fun a => do .ok (rational (← a.rational? 0))),
   ("is_integral", fun a => do .ok (boolean ((← a.rational? 0).den = 1))),
   ("sign", fun a => do .ok (integer (rationalSign (← a.rational? 0)))),
   ("floor", fun a => do .ok (integer (← a.rational? 0).floor)),
   ("ceiling", fun a => do .ok (integer (← a.rational? 0).ceil)),
   ("as_integer", fun a => do .ok (integer (← a.integer? 0))),
   ("gcd", fun a => do .ok (natural (Integer.gcdAll (← integers? a.positional)))),
   ("lcm", fun a => do .ok (natural (Integer.lcmAll (← integers? a.positional)))),
   ("ext_gcd", fun a => do
      let e ← bezout? a
      .ok (tuple [natural e.gcd, integer e.x, integer e.y])),
   ("mod_inverse", fun a => do .ok (integer (← modularInverse? a))),
   ("divisors", fun a => do .ok (list ((← divisorsOf? a).map natural))),
   ("is_prime", fun a => do .ok (boolean (Integer.isPrime (← a.integer? 0)))),
   ("factorial", fun a => do .ok (natural (← (← a.at? 0).factorial?)))]

/-- The operators. -/
def operatorOperations : List (String × Operation) :=
  [("add", binary add),
   ("sub", binary sub),
   ("mul", binary mul),
   ("truediv", binary div),
   ("floordiv", binary floorDiv),
   ("mod", binary mod),
   ("divmod", binary divMod),
   ("pow", binary pow),
   ("call", binary call),
   ("eq", binary fun v w => .ok (boolean (same v w))),
   ("ne", binary fun v w => .ok (boolean (!same v w))),
   ("neg", fun a => do neg (← a.at? 0)),
   ("pos", fun a => do pos (← a.at? 0)),
   ("bool", fun a => do .ok (boolean (← a.at? 0).isTrue)),
   ("str", fun a => do .ok (text (← a.at? 0).toText)),
   ("repr", fun a => do .ok (text (← a.at? 0).shown)),
   ("distinct", fun a => do .ok (natural (← distinct? a.positional))),
   ("same_hash", binary fun v w => do .ok (boolean (← sameHash? v w)))]

end ExactAlgebra.Calculator
