import ExactAlgebra.Polynomial.Basic
import ExactAlgebra.Rational.Numeral
import ExactAlgebra.Text.Quoted
import ExactAlgebra.Text.Word

/-!
Reading polynomials from text, such as `3x^2 - 1/2x + 4`.

Spaces mean nothing. The rest is cut in front of every sign into signed pieces, and
each piece is a term: a coefficient, an asterisk and a power of the variable, where
the coefficient, in brackets or not, or the power may be missing, but not both. A
power is a name with an exponent after `^` or `**`, or a name alone.

* `pieces` cuts a text in front of every sign.
* `Term.ofPiece?` reads the shape of a term.
* `collect` adds up the terms of a text, all in one variable.
* `coefficientsOfText?`, `ofText?` read a polynomial.
-/

namespace ExactAlgebra.Polynomial

open Text

/-! ### Signed pieces -/

/-- The two signs. -/
def isSign (c : Char) : Bool := c = '+' || c = '-'

/-- Whether a text begins with a sign. -/
def startsWithSign : List Char → Bool
  | [] => false
  | c :: _ => isSign c

/-- A text cut in front of every sign. -/
def pieces : List Char → List (List Char)
  | [] => []
  | c :: cs =>
    match pieces cs with
    | [] => [[c]]
    | p :: ps => if startsWithSign p then [c] :: p :: ps else (c :: p) :: ps

/-- Whether a piece is nothing but a sign. -/
def isLoneSign : List Char → Bool
  | [c] => isSign c
  | _ => false

/-- The signed pieces of a text, each of which holds more than a sign; there is at least
one. -/
def signedPieces? (cs : List Char) : Option (List (List Char)) :=
  let ps := pieces cs
  if ps.isEmpty || ps.any isLoneSign then none else some ps

/-! ### The shape of a term -/

/-- A term as it is written: its sign, its coefficient, its variable and the exponent. -/
structure Term where
  negative : Bool
  coefficient : Option (List Char)
  name? : Option (List Char)
  exponent : Option (List Char)
  deriving DecidableEq

namespace Term

/-- A separator with digits after it, if both are there: the digits, and what follows. -/
def takePart (separator : Char) : List Char → List Char × List Char
  | c :: d :: cs =>
    if c = separator ∧ isDecimal d then
      (c :: d :: cs.takeWhile isDecimal, cs.dropWhile isDecimal)
    else ([], c :: d :: cs)
  | cs => ([], cs)

/-- The coefficient at the front of a text, digits with an optional decimal part and an
optional divisor, and what follows it. -/
def takeNumber (cs : List Char) : List Char × List Char :=
  let whole := cs.takeWhile isDecimal
  let (fraction, rest) := takePart '.' (cs.dropWhile isDecimal)
  let (divisor, rest) := takePart '/' rest
  (whole ++ fraction ++ divisor, rest)

/-- The coefficient of a term, if there is one, and what follows it; `none` for a bracket
that encloses no coefficient. -/
def takeCoefficient? : List Char → Option (Option (List Char) × List Char)
  | [] => some (none, [])
  | '(' :: cs =>
    if cs.head?.any isDecimal then
      match takeNumber cs with
      | (number, ')' :: rest) => some (some number, rest)
      | _ => none
    else none
  | c :: cs =>
    if isDecimal c then
      let (number, rest) := takeNumber (c :: cs)
      some (some number, rest)
    else some (none, c :: cs)

/-- A text without an asterisk at its front. -/
def dropAsterisk : List Char → List Char
  | '*' :: cs => cs
  | cs => cs

/-- The exponent that fills a text: digits after `^` or `**`. -/
def exponent? : List Char → Option (List Char)
  | '^' :: cs => if cs.isEmpty || !cs.all isDecimal then none else some cs
  | '*' :: '*' :: cs => if cs.isEmpty || !cs.all isDecimal then none else some cs
  | _ => none

/-- The power that fills a text: a name and an optional exponent, or nothing. -/
def power? : List Char → Option (Option (List Char) × Option (List Char))
  | [] => some (none, none)
  | c :: cs =>
    if isNameStart c then
      let name := c :: cs.takeWhile isWord
      match cs.dropWhile isWord with
      | [] => some (some name, none)
      | rest => (exponent? rest).map fun e => (some name, some e)
    else none

/-- The term that a signed piece writes. -/
def ofPiece? (piece : List Char) : Option Term := do
  let (negative, cs) := takeSign piece
  let (coefficient, cs) ← takeCoefficient? cs
  let (name?, exponent) ← power? (dropAsterisk cs)
  if coefficient.isNone && name?.isNone then none
  else some ⟨negative, coefficient, name?, exponent⟩

/-- The natural number that digits of any script write. -/
def ofDigits (cs : List Char) : Nat := ofDigitValues (cs.filterMap digitValue?)

/-- The power that a term has: zero without a variable, one without an exponent. -/
def degree (t : Term) : Nat :=
  match t.name?, t.exponent with
  | none, _ => 0
  | some _, none => 1
  | some _, some e => ofDigits e

/-- The coefficient of a term with its sign; a coefficient that is missing is one. -/
def value? (t : Term) : Except Error Rat :=
  match t.coefficient with
  | none => .ok (if t.negative then -1 else 1)
  | some cs =>
    match numeral? (String.ofList cs) with
    | some c => .ok (if t.negative then -c else c)
    | none => .error (.unreadableNumber (quoted (String.ofList cs)))

end Term

/-! ### Reading a sum of terms -/

/-- What has been read of a sum: the coefficients up to the highest power seen, and the
name of the variable. -/
structure Sum where
  coefficients : List Rat
  name? : Option (List Char)

/-- The name that two terms share, if they do not differ in it. -/
def sharedName? : Option (List Char) → Option (List Char) → Except Error (Option (List Char))
  | none, b => .ok b
  | some a, none => .ok (some a)
  | some a, some b =>
    if a = b then .ok (some a)
    else .error (.twoVariables (quoted (String.ofList a)) (quoted (String.ofList b)))

/-- A sum with the term of a further piece added; `shown` is the whole text as messages
show it. -/
def Sum.addPiece (shown : String) (s : Sum) (piece : List Char) : Except Error Sum :=
  match Term.ofPiece? piece with
  | none => .error (.unreadableTerm (quoted (String.ofList piece)) shown)
  | some t => do
    let c ← t.value?
    let name? ← sharedName? s.name? t.name?
    .ok ⟨Coefficients.add s.coefficients (List.replicate t.degree 0 ++ [c]), name?⟩

/-- The coefficients that a text lists, up to the highest power it mentions, and the name
of its variable. -/
def coefficientsOfText? (s : String) : Except Error (List Rat × Option String) :=
  match signedPieces? (dropSpaces s.toList) with
  | none => .error (.unreadablePolynomial (quoted s))
  | some ps => do
    let sum ← ps.foldlM (Sum.addPiece (quoted s)) ⟨[], none⟩
    .ok (sum.coefficients, sum.name?.map String.ofList)

/-- The polynomial that a text writes, labelled by the name of its variable. -/
def ofText? (s : String) : Except Error Polynomial := do
  let (cs, name?) ← coefficientsOfText? s
  ofCoefficients? cs name?

end ExactAlgebra.Polynomial
