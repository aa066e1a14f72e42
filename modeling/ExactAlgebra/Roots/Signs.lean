import ExactAlgebra.Polynomial.Basic

/-!
Descartes' rule of signs: the number of positive roots, each counted with its
multiplicity, is the number of sign changes between consecutive nonzero coefficients or
less by an even number.
-/

namespace ExactAlgebra

/-- The sign of a rational number: `1`, `0` or `-1`. -/
def rationalSign (r : Rat) : Int := r.num.sign

/-- The number of places at which two neighbours of a list differ. -/
def countChanges : List Int → Nat
  | s :: t :: rest => (if s = t then 0 else 1) + countChanges (t :: rest)
  | _ => 0

/-- The numbers `n, n - 2, n - 4, …` down to one or zero. -/
def stepsOfTwo : Nat → List Nat
  | 0 => [0]
  | 1 => [1]
  | n + 2 => (n + 2) :: stepsOfTwo n

/-- What the rule of signs says about a polynomial. -/
structure SignReport where
  positiveChanges : Nat
  negativeChanges : Nat
  possiblePositive : List Nat
  possibleNegative : List Nat
  deriving DecidableEq

namespace Polynomial

/-- The number of sign changes between consecutive nonzero coefficients. -/
def signChanges (p : Polynomial) : Nat :=
  countChanges ((p.ascending.filter fun c => c ≠ 0).map rationalSign)

/-- The coefficients with the signs of the odd powers changed. -/
def alternateSigns : List Rat → List Rat
  | [] => []
  | [a] => [a]
  | a :: b :: rest => a :: -b :: alternateSigns rest

/-- The polynomial with `-x` in the place of `x`. -/
def reflect (p : Polynomial) : Polynomial := ofList (alternateSigns p.ascending) p.label

/-- The possible numbers of positive and of negative roots. -/
def ruleOfSigns (p : Polynomial) : SignReport :=
  let positive := p.signChanges
  let negative := p.reflect.signChanges
  ⟨positive, negative, stepsOfTwo positive, stepsOfTwo negative⟩

end Polynomial

end ExactAlgebra
