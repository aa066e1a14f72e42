import ExactAlgebra.Polynomial.Synthetic

/-!
Taylor expansions: polynomials written in powers of `x - center`.

* `TaylorExpansion` holds the center and the coefficients, which may end in zeros or be
  missing altogether.
* `Polynomial.rebase` expands a polynomial about a center by repeated synthetic
  division; every division yields the next coefficient as its remainder.
* `TaylorExpansion.toPolynomial?` goes back to powers of `x`.
-/

namespace ExactAlgebra

open Coefficients

/-- A polynomial in powers of `x - center`. -/
structure TaylorExpansion where
  center : Rat
  /-- The coefficients of the powers of `x - center`, the power zero first. -/
  coefficients : List Rat
  label : Option String
  deriving DecidableEq

namespace TaylorExpansion

/-- Two expansions are equal when center and coefficients are; the label is for display
only. -/
instance : BEq TaylorExpansion where
  beq s t := s.center == t.center && s.coefficients == t.coefficients

/-- The value at `center + s`. -/
def evalShifted (t : TaylorExpansion) (s : Rat) : Rat := Coefficients.eval s t.coefficients

/-- The value at `x`. -/
def eval (t : TaylorExpansion) (x : Rat) : Rat := t.evalShifted (x - t.center)

/-- The coefficients as a polynomial in `x - center`. -/
def shiftedPolynomial? (t : TaylorExpansion) : Except Error Polynomial :=
  Polynomial.ofCoefficients? t.coefficients t.label

/-- The expansion as a polynomial in `x`. -/
def toPolynomial? (t : TaylorExpansion) : Except Error Polynomial := do
  .ok ((← t.shiftedPolynomial?).compose (.linear t.center t.label))

/-- The text of an expansion. -/
def toText (t : TaylorExpansion) : String :=
  "TaylorExpansion(center=" ++ rationalText t.center ++ ", coefficients=["
    ++ ", ".intercalate (t.coefficients.map rationalText) ++ "])"

end TaylorExpansion

namespace Polynomial

/-- The remainders of `count` synthetic divisions by `x - a`, each of the quotient of the
one before. -/
def taylorCoefficients (a : Rat) : (count : Nat) → Polynomial → List Rat
  | 0, _ => []
  | count + 1, p =>
    let division := p.syntheticDivide a
    division.remainder :: taylorCoefficients a count division.quotient

/-- The expansion of a polynomial about `a`, with as many coefficients as the polynomial
shows. -/
def rebase (p : Polynomial) (a : Rat) : TaylorExpansion :=
  ⟨a, taylorCoefficients a p.coefficients.length p, p.label⟩

end Polynomial

end ExactAlgebra
