import ExactAlgebra.Text.Blank
import ExactAlgebra.Text.DecimalDigit

/-!
Numerals: the texts that denote rational numbers.

A decimal numeral is a sign, digits, a point with further digits, and an exponent
of ten, of which only one digit before or after the point is obligatory:
`-3`, `.5`, `5.e2`, `1_000`. A single underscore may stand between two digits, and
blanks may surround the whole. A numeral is a decimal numeral or a quotient `p/q`
of two of them; spaces mean nothing in it.

* `takeDigits` reads the digits at the front of a text.
* `decimal?` reads a decimal numeral into its parts, a `Decimal`, whose
  value is `Decimal.value`.
* `numeral?` is the value of a numeral, `none` for any other text.
-/

namespace ExactAlgebra

open Text

/-! ### The parts of a decimal numeral -/

/-- The parts of a decimal numeral: `sign whole.fraction e exponent`. -/
structure Decimal where
  negative : Bool
  /-- The digits before the point. -/
  whole : List Nat
  /-- The digits after the point. -/
  fraction : List Nat
  /-- The power of ten. -/
  exponent : Int

/-- All digits, read as one integer, times the power of ten that puts the point
back in its place. -/
def Decimal.value (d : Decimal) : Rat :=
  let n : Int := ofDigitValues (d.whole ++ d.fraction)
  (if d.negative then -n else n) * (10 : Rat) ^ (d.exponent - d.fraction.length)

/-! ### Reading -/

/-- The digits at the front of a text, where a single underscore may stand
between two digits, and what follows them. The first character may be such an
underscore too: the text is one that follows a digit. -/
def takeMoreDigits : List Char → List Nat × List Char
  | [] => ([], [])
  | '_' :: c :: cs =>
    match digitValue? c with
    | some d => ((d :: (takeMoreDigits cs).1), (takeMoreDigits cs).2)
    | none => ([], '_' :: c :: cs)
  | c :: cs =>
    match digitValue? c with
    | some d => ((d :: (takeMoreDigits cs).1), (takeMoreDigits cs).2)
    | none => ([], c :: cs)

/-- The digits at the front of a text and what follows them. -/
def takeDigits : List Char → List Nat × List Char
  | [] => ([], [])
  | c :: cs =>
    match digitValue? c with
    | some d => ((d :: (takeMoreDigits cs).1), (takeMoreDigits cs).2)
    | none => ([], c :: cs)

/-- The sign at the front of a text, `true` for a minus, and what follows it. -/
def takeSign : List Char → Bool × List Char
  | '-' :: cs => (true, cs)
  | '+' :: cs => (false, cs)
  | cs => (false, cs)

/-- The digits after a point, none where there is no point. -/
def takeFraction : List Char → List Nat × List Char
  | '.' :: cs => takeDigits cs
  | cs => ([], cs)

/-- The exponent at the front of a text, zero where there is none. The letter of an
exponent is followed by a sign or by none, and by a digit. -/
def takeExponent? : List Char → Option (Int × List Char)
  | [] => some (0, [])
  | c :: cs =>
    if c = 'e' ∨ c = 'E' then
      let (negative, cs) := takeSign cs
      match takeDigits cs with
      | ([], _) => none
      | (ds, rest) => some (if negative then -(ofDigitValues ds : Int) else ofDigitValues ds, rest)
    else some (0, c :: cs)

/-- The parts of a decimal numeral, `none` for any other text. -/
def decimal? (cs : List Char) : Option Decimal :=
  let (negative, cs) := takeSign (cs.dropWhile isBlank)
  let (whole, cs) := takeDigits cs
  let (fraction, cs) := takeFraction cs
  if whole.isEmpty && fraction.isEmpty then none
  else match takeExponent? cs with
    | some (exponent, rest) =>
      if rest.all isBlank then some ⟨negative, whole, fraction, exponent⟩ else none
    | none => none

/-- The value of a decimal numeral. -/
def decimalValue? (cs : List Char) : Option Rat := (decimal? cs).map Decimal.value

/-- The quotient of two numbers, `none` for the divisor zero. -/
def quotient? (p q : Rat) : Option Rat := if q = 0 then none else some (p / q)

/-- The value of a numeral without spaces: a decimal numeral or a quotient of two. -/
def compactNumeral? (cs : List Char) : Option Rat :=
  match cs.span (· != '/') with
  | (p, _ :: q) => do quotient? (← decimalValue? p) (← decimalValue? q)
  | (p, []) => decimalValue? p

/-- The value of a numeral. -/
def numeral? (s : String) : Option Rat := compactNumeral? (dropSpaces (strip s.toList))

end ExactAlgebra
