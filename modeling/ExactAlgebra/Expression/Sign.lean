import ExactAlgebra.Expression.Form
import ExactAlgebra.Expression.Interval

/-!
The signs of constants.

* `Form.enclosure?` bounds the real and the imaginary part of a form without symbols.
* `Form.sign?` is the sign of a form without symbols, where the bounds tell it. A real
  constant made of rational numbers and roots alone is zero if the bounds do not tell it
  from zero.
-/

namespace ExactAlgebra

/-- Bounds for a complex number. -/
structure Enclosure where
  re : Interval
  im : Interval

namespace Enclosure

/-- Bounds for a real number. -/
def ofReal (a : Interval) : Enclosure := ⟨a, .zero⟩

/-- Whether a number is known to be real. -/
def isReal (a : Enclosure) : Bool := a.im.isZero

/-- The sum. -/
def add (a b : Enclosure) : Enclosure := ⟨a.re.add b.re, a.im.add b.im⟩

/-- The product. -/
def mul (a b : Enclosure) : Enclosure :=
  ⟨(a.re.mul b.re).sub (a.im.mul b.im), (a.re.mul b.im).add (a.im.mul b.re)⟩

/-- The inverse, if the number is known not to be zero. -/
def inverse? (a : Enclosure) : Option Enclosure := do
  if a.isReal then some (ofReal (← a.re.inverse?))
  else
    let norm ← ((a.re.mul a.re).add (a.im.mul a.im)).inverse?
    some ⟨a.re.mul norm, a.im.neg.mul norm⟩

/-- The power with a natural exponent. -/
def pow (a : Enclosure) : Nat → Enclosure
  | 0 => ofReal (.ofRat 1)
  | n + 1 => (a.pow n).mul a

/-- The greatest exponent and the greatest root that are computed. -/
def exponentBound : Nat := 64

/-- The power with an integer exponent. -/
def intPow? (a : Enclosure) (n : Int) : Option Enclosure :=
  if exponentBound < n.natAbs then none
  else if 0 ≤ n then some (a.pow n.natAbs) else do some ((← a.inverse?).pow n.natAbs)

/-- The power of a real number with a rational exponent. A negative number has the argument
π, which the exponent multiplies. -/
def ratPow? (a : Enclosure) (e : Rat) : Option Enclosure := do
  if e.den = 1 then a.intPow? e.num
  else if exponentBound < e.den ∨ a.isReal = false then none
  else if 0 ≤ a.re.lower then (ofReal (a.re.root e.den)).intPow? e.num
  else if a.re.upper < 0 then
    let modulus ← (ofReal (a.re.neg.root e.den)).intPow? e.num
    let argument := Interval.pi.mul (.ofRat e)
    some (modulus.mul ⟨argument.cosine, argument.sine⟩)
  else none

end Enclosure

/-- The sign of a constant. -/
inductive Sign
  | negative
  | zero
  | positive
  | nonreal
  deriving DecidableEq

namespace Form

mutual

/-- Bounds for a form without symbols, as far as they are known. -/
def enclosure? : Form → Option Enclosure
  | number r => some (.ofReal (.ofRat r))
  | imaginaryUnit => some ⟨.zero, .ofRat 1⟩
  | pi => some (.ofReal .pi)
  | power b (number e) => do (← enclosure? b).ratPow? e
  | function .sine a => do
    let a ← enclosure? a
    if a.isReal then some (.ofReal a.re.sine) else none
  | function .cosine a => do
    let a ← enclosure? a
    if a.isReal then some (.ofReal a.re.cosine) else none
  | product fs => enclosureOfProduct? fs
  | sum ts => enclosureOfSum? ts
  | _ => none

/-- Bounds for a product. -/
def enclosureOfProduct? : List Form → Option Enclosure
  | [] => some (.ofReal (.ofRat 1))
  | f :: fs => do some ((← enclosure? f).mul (← enclosureOfProduct? fs))

/-- Bounds for a sum. -/
def enclosureOfSum? : List Form → Option Enclosure
  | [] => some (.ofReal .zero)
  | f :: fs => do some ((← enclosure? f).add (← enclosureOfSum? fs))

end

mutual

/-- Whether a form is made of rational numbers, the imaginary unit and roots alone. -/
def isAlgebraic : Form → Bool
  | number _ => true
  | imaginaryUnit => true
  | power b (number _) => isAlgebraic b
  | product fs => areAlgebraic fs
  | sum ts => areAlgebraic ts
  | _ => false

/-- Whether all forms of a list are made of rational numbers, the imaginary unit and roots
alone. -/
def areAlgebraic : List Form → Bool
  | [] => true
  | f :: fs => isAlgebraic f && areAlgebraic fs

end

/-- Whether bounds leave room for little but zero. -/
def nearZero (a : Interval) : Bool :=
  a.lower ≤ 0 && 0 ≤ a.upper && a.upper - a.lower ≤ gridUnit / Int.pow 2 80

/-- The sign of a form without symbols, if it is known. -/
def sign? (f : Form) : Option Sign :=
  match f.enclosure? with
  | none => none
  | some a =>
    if a.isReal then
      if 0 < a.re.lower then some .positive
      else if a.re.upper < 0 then some .negative
      else if a.re.isZero || (nearZero a.re && f.isAlgebraic) then some .zero
      else none
    else if 0 < a.im.lower ∨ a.im.upper < 0 then some .nonreal
    else none

/-- Whether a form is known to be a real number that is not negative. -/
def isNonnegative (f : Form) : Bool :=
  match f.sign? with
  | some .positive | some .zero => true
  | _ => false

/-- Whether a form is known to be zero. -/
def isZero (f : Form) : Bool := f.sign? == some .zero

end Form

end ExactAlgebra
