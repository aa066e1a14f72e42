import ExactAlgebra.Polynomial.Reader
import ExactAlgebra.RationalFunction.Basic

/-!
Reading rational functions from text. Spaces mean nothing, and three forms are tried in
turn:

* the bracketed quotient `(numerator)/(denominator)`, cut at the last `)/(` that leaves
  something on both sides;
* one pair of brackets `(numerator)`, which may hold brackets of its own but none inside
  those;
* a text with a single slash, `numerator/denominator`, where the brackets at the ends of
  both parts are dropped.
-/

namespace ExactAlgebra.RationalFunction

open Text

/-- The round brackets. -/
def isBracket (c : Char) : Bool := c = '(' || c = ')'

/-- A text without the brackets at its two ends. -/
def stripBrackets (cs : List Char) : List Char :=
  ((cs.dropWhile isBracket).reverse.dropWhile isBracket).reverse

/-- The two sides of the last `)/(` that has something on both of its sides. -/
def splitQuotient? : List Char → Option (List Char × List Char)
  | [] => none
  | c :: cs =>
    match splitQuotient? cs with
    | some (a, b) => some (c :: a, b)
    | none =>
      match cs with
      | ')' :: '/' :: '(' :: d :: rest => some ([c], d :: rest)
      | _ => none

/-- A text without the bracket that opens it and the one that closes it. -/
def unbracket? : List Char → Option (List Char)
  | '(' :: cs => if cs.getLast? = some ')' then some cs.dropLast else none
  | _ => none

/-- Numerator and denominator of a bracketed quotient, which holds no line break. -/
def bracketedQuotient? (cs : List Char) : Option (List Char × List Char) :=
  if cs.contains '\n' then none else (unbracket? cs).bind splitQuotient?

/-- Whether the brackets of a text match and are not nested; `inside` tells whether a
bracket is open. -/
def bracketsMatch : (inside : Bool) → List Char → Bool
  | inside, [] => !inside
  | inside, c :: cs =>
    if c = '(' then !inside && bracketsMatch true cs
    else if c = ')' then inside && bracketsMatch false cs
    else bracketsMatch inside cs

/-- The inside of one pair of brackets. -/
def bracketed? (cs : List Char) : Option (List Char) :=
  (unbracket? cs).filter (bracketsMatch false)

/-- The two parts of a text with a single slash. -/
def slashQuotient? (cs : List Char) : Option (List Char × List Char) :=
  if cs.count '/' = 1 then
    some (stripBrackets (cs.takeWhile (· != '/')), stripBrackets (cs.dropWhile (· != '/')).tail)
  else none

/-- The texts of numerator and denominator. -/
def parts? (cs : List Char) : Option (List Char × List Char) :=
  bracketedQuotient? cs <|> ((bracketed? cs).map fun n => (n, ['1'])) <|> slashQuotient? cs

/-- The rational function that a text writes. -/
def ofText? (s : String) : Except Error RationalFunction :=
  let cs := dropSpaces s.toList
  match parts? cs with
  | none => .error (.unreadableFunction (quoted (String.ofList cs)))
  | some (n, d) => do
    let numerator ← Polynomial.ofText? (String.ofList n)
    let denominator ← Polynomial.ofText? (String.ofList d)
    ofPolynomials? numerator denominator

end ExactAlgebra.RationalFunction
