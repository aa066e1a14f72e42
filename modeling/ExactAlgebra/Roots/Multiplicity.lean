import ExactAlgebra.Polynomial.Synthetic
import ExactAlgebra.Roots.Rational

/-!
The multiplicities of the rational roots of a polynomial.

* `divideOut` divides a polynomial by `x - r` as often as this leaves no remainder, and
  counts its steps against a limit.
* `rootMultiplicities` does so for every rational root in turn. What is left is the
  cofactor, which has no rational root.
-/

namespace ExactAlgebra

/-- A polynomial as the product of its rational linear factors and a cofactor. -/
structure RootFactorization where
  /-- The roots in ascending order with their multiplicities. -/
  roots : List (Rat × Nat)
  cofactor : Polynomial
  deriving DecidableEq

namespace Polynomial

/-- The synthetic divisions that one count of multiplicities may make when no limit is
given. -/
def defaultMultiplicitySteps : Int := 10000

/-- The state of a count: what is left of the polynomial, the divisions made so far and
the multiplicity of the present root so far. -/
structure Deflation where
  rest : Polynomial
  steps : Nat
  multiplicity : Nat

/-- The division by `x - r` repeated until a remainder is left or the quotient is
constant. Every division counts as a step, the one that leaves a remainder too. -/
def divideOut (limit : Int) (r : Rat) (p : Polynomial) (steps multiplicity : Nat) :
    Except Error Deflation :=
  if h : p.degree < 1 then .ok ⟨p, steps, multiplicity⟩
  else if limit < (steps + 1 : Nat) then
    .error (.limitExceeded .multiplicities (toString limit))
  else
    let division := p.syntheticDivide r
    if division.remainder ≠ 0 then .ok ⟨p, steps + 1, multiplicity⟩
    else divideOut limit r division.quotient (steps + 1) (multiplicity + 1)
termination_by p.ascending.length
decreasing_by
  refine length_quotient_lt (isZero_eq_false_iff.2 fun h0 => h ?_) r
  simp [degree, h0]

/-- The roots of a list divided out one after the other. -/
def divideOutAll (limit : Int) : List Rat → Polynomial → (steps : Nat) →
    Except Error RootFactorization
  | [], p, _ => .ok ⟨[], p⟩
  | r :: rs, p, steps => do
    let state ← divideOut limit r p steps 0
    let factorization ← divideOutAll limit rs state.rest state.steps
    .ok { factorization with roots := (r, state.multiplicity) :: factorization.roots }

/-- The rational roots of a nonzero polynomial with their multiplicities, and the
cofactor. -/
def rootMultiplicities (p : Polynomial) (limit : Int) : Except Error RootFactorization := do
  let roots ← p.rationalRoots true defaultRootCandidates
  divideOutAll limit roots p 0

end Polynomial

end ExactAlgebra
