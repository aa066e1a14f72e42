/-!
Rational numbers extended by two values for quotients by zero: `infinite` for a nonzero
number over zero, without a sign, and `undefined` for zero over zero.
-/

namespace ExactAlgebra

/-- A rational number, the infinite value or the undefined one. -/
inductive Extended
  | finite (r : Rat)
  | infinite
  | undefined
  deriving DecidableEq

namespace Extended

/-- The sum. A number changes nothing about the infinite value; the sum of two infinite
values is undefined, and so is every sum with the undefined value. -/
def add : Extended → Extended → Extended
  | undefined, _ => undefined
  | _, undefined => undefined
  | infinite, infinite => undefined
  | infinite, finite _ => infinite
  | finite _, infinite => infinite
  | finite a, finite b => finite (a + b)

instance : Add Extended where
  add := add

/-- The quotient of two numbers. -/
def quotient (a b : Rat) : Extended :=
  if b ≠ 0 then finite (a / b) else if a ≠ 0 then infinite else undefined

/-- The quotient of a number by an integer power, `a / b ^ n`. A power with a negative
exponent multiplies instead, so that its base may be zero. -/
def overPower (a b : Rat) (n : Int) : Extended :=
  if n < 0 then finite (a * b ^ n.natAbs) else quotient a (b ^ n.natAbs)

end Extended

end ExactAlgebra
