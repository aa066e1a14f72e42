import ExactAlgebra.Polynomial.Basic

/-!
The text of a polynomial, such as `3x^2 - (1/2)x + 4`: the terms from the highest
power down, terms with the coefficient zero left out. In front of a power the
coefficient one is left out and a fraction stands in brackets. The zero polynomial
is `0`.
-/

namespace ExactAlgebra.Polynomial

/-- The text of a power of the variable, from the first power on. -/
def powerText (variableName : String) (n : Nat) : String :=
  if n = 1 then variableName else variableName ++ "^" ++ toString n

/-- The text of a positive coefficient in front of a power. -/
def factorText (c : Rat) : String :=
  if c = 1 then ""
  else if c.den = 1 then rationalText c
  else "(" ++ rationalText c ++ ")"

/-- The text of a term whose coefficient is positive. -/
def termText (variableName : String) (c : Rat) (n : Nat) : String :=
  if n = 0 then rationalText c else factorText c ++ powerText variableName n

/-- The nonzero coefficients with their powers, from the highest power down. -/
def descendingTerms (p : Polynomial) : List (Rat × Nat) :=
  (p.ascending.zipIdx.filter fun t => t.1 != 0).reverse

/-- The text of a further term: a sign between spaces, and the term. -/
def furtherTermText (variableName : String) (t : Rat × Nat) : String :=
  (if t.1 < 0 then " - " else " + ") ++ termText variableName t.1.abs t.2

/-- The text of the terms: only a minus is shown as the sign of the first one. -/
def termsText (variableName : String) : List (Rat × Nat) → String
  | [] => "0"
  | t :: ts =>
    (if t.1 < 0 then "-" else "") ++ termText variableName t.1.abs t.2
      ++ String.join (ts.map (furtherTermText variableName))

/-- The text of a polynomial. -/
def toText (p : Polynomial) : String := termsText p.variableName p.descendingTerms

end ExactAlgebra.Polynomial
