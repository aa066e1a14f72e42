import ExactAlgebra.Polynomial.Basic

/-!
Cauchy's bound on the roots of a polynomial: with the leading coefficient `a` and the
other coefficients `aᵢ`, every root is less in absolute value than
`1 + max |aᵢ / a|`.
-/

namespace ExactAlgebra.Polynomial

/-- The larger of two numbers. -/
def larger (a b : Rat) : Rat := if a ≤ b then b else a

/-- Cauchy's bound on the roots of a nonzero polynomial; a constant has the bound one. -/
def cauchyBound (p : Polynomial) : Except Error Rat :=
  if p.isZero then .error .boundOfZero
  else .ok (1 + (p.ascending.dropLast.map fun c => (c / p.leadingCoefficient).abs).foldr larger 0)

end ExactAlgebra.Polynomial
