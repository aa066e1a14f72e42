import ExactAlgebra.PartialFractions.Extended
import ExactAlgebra.RationalFunction.Basic

/-!
Sums of a polynomial and simple fractions `c / (x - r) ^ k`.

* `SimpleFraction` is one such term. Its power may be any integer; as a rational function
  a term whose power is not positive has the denominator one.
* `Decomposition` is the sum of a polynomial, its quotient, and of terms in order.
* `eval` gives the value at any point, infinite or undefined at a pole.
* `toRationalFunction` adds everything up, in canonical form.
-/

namespace ExactAlgebra

/-- The term `coefficient / (x - root) ^ power`. -/
structure SimpleFraction where
  root : Rat
  power : Int
  coefficient : Rat
  deriving DecidableEq

namespace SimpleFraction

/-- The text of a term in the given variable. -/
def toText (t : SimpleFraction) (variableName : String) : String :=
  let base :=
    if 0 ≤ t.root then "(" ++ variableName ++ " - " ++ rationalText t.root ++ ")"
    else "(" ++ variableName ++ " + " ++ rationalText (-t.root) ++ ")"
  "(" ++ rationalText t.coefficient ++ ")/" ++ base
    ++ (if 1 < t.power then "^" ++ toString t.power else "")

/-- The term as a rational function over the product of its linear factors. -/
def toRationalFunction (t : SimpleFraction) (label : Option String) : RationalFunction :=
  ⟨.const t.coefficient label, .ofRoots (List.replicate t.power.toNat t.root) label,
    Polynomial.isZero_ofRoots _ label⟩

/-- The value at a point. -/
def eval (t : SimpleFraction) (x : Rat) : Extended :=
  Extended.overPower t.coefficient (x - t.root) t.power

end SimpleFraction

/-- The sum of a polynomial and simple fractions. -/
structure Decomposition where
  quotient : Polynomial
  terms : List SimpleFraction
  deriving DecidableEq

namespace Decomposition

/-- Two sums are equal when their quotients and their terms are. -/
instance : BEq Decomposition where
  beq d e := d.quotient == e.quotient && d.terms == e.terms

/-- The text of a sum. The quotient comes first; it is left out when it is zero and there
are terms. -/
def toText (d : Decomposition) : String :=
  let fractions := d.terms.map fun t => t.toText d.quotient.variableName
  " + ".intercalate
    (if d.quotient.isZero && !fractions.isEmpty then fractions
      else d.quotient.toText :: fractions)

/-- The sum as one rational function in canonical form. -/
def toRationalFunction (d : Decomposition) : RationalFunction :=
  let total := d.terms.foldl
    (fun total t => total + SimpleFraction.toRationalFunction t d.quotient.label)
    (RationalFunction.ofPolynomial d.quotient)
  total.simplify

/-- The value at a point. -/
def eval (d : Decomposition) (x : Rat) : Extended :=
  d.terms.foldl (fun value t => value + t.eval x) (.finite (d.quotient.eval x))

end Decomposition

end ExactAlgebra
