import ExactAlgebra.Integer.Factorial
import ExactAlgebra.PartialFractions.Basic
import ExactAlgebra.RationalFunction.Calculus
import ExactAlgebra.Roots.Multiplicity

/-!
The partial fractions of a rational function whose denominator is a product of rational
linear factors.

At a root `r` of multiplicity `m` of the reduced denominator `(x - r) ^ m * C`, the
function `g = numerator / C` has no pole, and the coefficient of `1 / (x - r) ^ (m - k)`
is `g⁽ᵏ⁾(r) / k!`, the `k`-th Taylor coefficient of `g` at `r`.

* `residues?` lists these coefficients from the power one to the power `m`.
* `partialFractions` is the whole decomposition. Terms are ordered by root and then by
  power; a root of multiplicity `m` has exactly `m` terms, some of which may be zero.
-/

namespace ExactAlgebra

namespace Polynomial

/-- The quotient of `count` synthetic divisions by `x - r`. -/
def divideOutTimes (r : Rat) : (count : Nat) → Polynomial → Polynomial
  | 0, p => p
  | count + 1, p => divideOutTimes r count (p.syntheticDivide r).quotient

end Polynomial

namespace RationalFunction

/-- The Taylor coefficients `g⁽ᵏ⁾(r) / k!` of a function `g` that is given by its `k`-th
derivative, for `count` values of `k` in descending order. -/
def taylorCoefficients? (r : Rat) : (count k : Nat) → RationalFunction →
    Except Error (List Rat)
  | 0, _, _ => .ok []
  | 1, k, g => do .ok [(← g.eval? r) / (Integer.factorial k : Rat)]
  | count + 2, k, g => do
    let c := (← g.eval? r) / (Integer.factorial k : Rat)
    let cs ← taylorCoefficients? r (count + 1) (k + 1) (g.derivative 1)
    .ok (cs ++ [c])

/-- The coefficients of the powers `1, …, m` of `1 / (x - r)` for a root `r` of
multiplicity `m` of the denominator. -/
def residues? (numerator denominator : Polynomial) (r : Rat) (m : Nat) :
    Except Error (List Rat) := do
  let g ← ofPolynomials? numerator (denominator.divideOutTimes r m)
  taylorCoefficients? r m 0 g

/-- The terms that one root contributes. -/
def termsAt? (numerator denominator : Polynomial) (r : Rat) (m : Nat) :
    Except Error (List SimpleFraction) := do
  let cs ← residues? numerator denominator r m
  .ok (cs.zipIdx.map fun c => ⟨r, c.2 + 1, c.1⟩)

/-- The label that the quotient of a decomposition has: that of the numerator, or else that
of the denominator, where an empty label counts as none. -/
def quotientLabel (r : RationalFunction) : Option String :=
  match r.numerator.label with
  | some name => if name.isEmpty then r.denominator.label else some name
  | none => r.denominator.label

/-- The polynomial part of a rational function under the given label, and the numerator of
what is left. -/
def splitProper (r : RationalFunction) (label : Option String) : Polynomial × Polynomial :=
  if r.isProper then (.zero label, r.numerator)
  else
    let q := r.numerator / r.denominator
    (q.withLabel (label.or q.label), r.numerator % r.denominator)

/-- The partial fractions of a rational function. The function is reduced first; a limit
bounds the synthetic divisions that count the multiplicities. -/
def partialFractions (r : RationalFunction) (limit : Int) : Except Error Decomposition :=
  let reduced := r.simplify
  let denominator := reduced.denominator
  let (quotient, numerator) := reduced.splitProper r.quotientLabel
  if denominator.degree < 1 ∨ numerator.isZero then .ok ⟨quotient, []⟩
  else do
    let factorization ← denominator.rootMultiplicities limit
    if 0 < factorization.cofactor.degree then
      .error (.factorWithoutRoots denominator.toText factorization.cofactor.toText)
    else
      let terms ← factorization.roots.mapM fun root =>
        termsAt? numerator denominator root.1 root.2
      .ok ⟨quotient, terms.flatten⟩

end RationalFunction

end ExactAlgebra
