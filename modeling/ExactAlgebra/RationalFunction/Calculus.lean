import ExactAlgebra.Polynomial.Calculus
import ExactAlgebra.RationalFunction.Basic
import ExactAlgebra.Roots.Rational

/-!
Derivatives of rational functions, their poles and their zeros.

* `derivative` is the quotient rule, reduced to the canonical form after every step.
* `poles?` and `zeros?` are the rational roots of denominator and numerator as they
  stand, common factors included.
-/

namespace ExactAlgebra.RationalFunction

open ExactAlgebra.Polynomial

/-- One derivative by the quotient rule, in canonical form. -/
def derivativeOnce (r : RationalFunction) : RationalFunction :=
  let n := r.numerator
  let d := r.denominator
  (RationalFunction.mk (n.derivative 1 * d - n * d.derivative 1) (d * d)
    (isZero_mul r.denominator_ne_zero r.denominator_ne_zero)).simplify

/-- The `n`-th derivative; the derivative of order zero is the function as it stands. -/
def derivative (r : RationalFunction) : Nat → RationalFunction
  | 0 => r
  | n + 1 => (derivative r n).derivativeOnce

/-- The rational roots of the denominator. -/
def poles? (r : RationalFunction) : Except Error (List Rat) :=
  r.denominator.rationalRoots true defaultRootCandidates

/-- The rational roots of the numerator. -/
def zeros? (r : RationalFunction) : Except Error (List Rat) :=
  r.numerator.rationalRoots true defaultRootCandidates

end ExactAlgebra.RationalFunction
