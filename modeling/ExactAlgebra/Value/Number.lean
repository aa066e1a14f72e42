import ExactAlgebra.Expression.Product
import ExactAlgebra.Value.Coercion

/-!
Arithmetic of two exact numbers.

A number is held as an integer, a machine integer, a fraction or a computed rational, and
the result of an operation is held like the operand that comes later in this order; only
the integral quotient of two fractions is an integer. A truth value takes part as the
integer `0` or `1`.

* `ExactNumber` is a number with the way it is held, `Value.exactNumber?` the number that a
  value is.
* `add`, `sub`, `mul`, `div` are the four operations; a computed rational is divided by
  zero with an infinite or undefined value, all other numbers are not.
* `floorDiv`, `mod` and `divMod` are division with a remainder that has the sign of the
  divisor.
* `pow` is the power.
-/

namespace ExactAlgebra

/-- How an exact number is held. -/
inductive NumberType
  | integer
  | machineInteger
  | fraction
  | rational
  deriving DecidableEq

namespace NumberType

/-- The place in the order of types. -/
def rank : NumberType → Nat
  | integer => 0
  | machineInteger => 1
  | fraction => 2
  | rational => 3

/-- The type of the result of an operation. -/
def join (s t : NumberType) : NumberType := if s.rank ≤ t.rank then t else s

end NumberType

/-- A rational number and how it is held. -/
structure ExactNumber where
  type : NumberType
  number : Rat

namespace ExactNumber

/-- The number as a value. -/
def toValue (a : ExactNumber) : Value :=
  match a.type with
  | .integer => .integer a.number.num
  | .machineInteger => .machineInteger a.number.num
  | .fraction => .fraction a.number
  | .rational => .rational a.number

/-- The type of the result of an operation on two numbers. -/
def joinType (a b : ExactNumber) : NumberType := a.type.join b.type

/-- The sum. -/
def add (a b : ExactNumber) : ExactNumber := ⟨a.joinType b, a.number + b.number⟩

/-- The difference. -/
def sub (a b : ExactNumber) : ExactNumber := ⟨a.joinType b, a.number - b.number⟩

/-- The product. -/
def mul (a b : ExactNumber) : ExactNumber := ⟨a.joinType b, a.number * b.number⟩

/-- The negative. -/
def neg (a : ExactNumber) : ExactNumber := ⟨a.type, -a.number⟩

/-- The quotient, which is held as a rational where neither operand is a fraction. -/
def div (a b : ExactNumber) : Except Error Value :=
  match a.joinType b with
  | .fraction =>
    if b.number = 0 then .error .zeroNumberDivisor else .ok (.fraction (a.number / b.number))
  | .rational => .ok (.ofExtended (.quotient a.number b.number))
  | _ =>
    if b.number = 0 then .error .zeroNumberDivisor else .ok (.rational (a.number / b.number))

/-- The greatest integer that is not above the quotient. -/
def floorDiv (a b : ExactNumber) : Except Error ExactNumber :=
  if b.number = 0 then .error .zeroNumberDivisor
  else
    let type := if a.joinType b = .fraction then .integer else a.joinType b
    .ok ⟨type, (a.number / b.number).floor⟩

/-- What is left of the first number when the integral quotient is taken out. -/
def mod (a b : ExactNumber) : Except Error ExactNumber :=
  if b.number = 0 then .error .zeroNumberDivisor
  else .ok ⟨a.joinType b, a.number - b.number * (a.number / b.number).floor⟩

/-- The type of a power. A fraction stays one, and a negative power of an integer is a
rational. -/
def powType (a b : ExactNumber) : NumberType :=
  match a.type, b.type with
  | .fraction, _ => .fraction
  | .rational, _ => .rational
  | _, .rational => .rational
  | s, .fraction => if b.number < 0 then .fraction else s
  | s, t => if b.number < 0 then .rational else s.join t

/-- The power. A negative power of zero is infinite for a computed rational and does not
exist for other numbers; a root exists for a computed rational if it is rational. -/
def pow (a b : ExactNumber) : Except Error Value :=
  let type := powType a b
  match rationalPow? a.number b.number with
  | some r => .ok (ExactNumber.mk type r).toValue
  | none =>
    if a.number = 0 ∧ b.number < 0 then
      if a.type = .rational ∨ b.type = .rational then .ok .infinite
      else .error .zeroNumberDivisor
    else if type = .rational then
      match (Form.number a.number).pow (.number b.number) with
      | .number r => .ok (.rational r)
      | _ => .error .unsupportedOperands
    else .error .unsupportedOperands

end ExactNumber

namespace Value

/-- The exact number that a value is; a numeral is none. -/
def exactNumber? : Value → Option ExactNumber
  | integer n => some ⟨.integer, n⟩
  | machineInteger n => some ⟨.machineInteger, n⟩
  | fraction r => some ⟨.fraction, r⟩
  | rational r => some ⟨.rational, r⟩
  | boolean b => some ⟨.integer, if b then 1 else 0⟩
  | _ => none

/-- Whether a value is a truth value. -/
def isBoolean : Value → Bool
  | boolean _ => true
  | _ => false

/-- Whether a value is a computed rational that is not an integer. -/
def isComputedFraction : Value → Bool
  | rational r => r.den != 1
  | _ => false

/-- Two values as exact numbers. A truth value is not combined with a computed rational
that is not an integer. -/
def exactNumbers? (v w : Value) : Except Error (ExactNumber × ExactNumber) :=
  match v.exactNumber?, w.exactNumber? with
  | some a, some b =>
    if (v.isBoolean && w.isComputedFraction) || (v.isComputedFraction && w.isBoolean) then
      .error .unsupportedOperands
    else .ok (a, b)
  | _, _ => .error .unsupportedOperands

end Value

end ExactAlgebra
