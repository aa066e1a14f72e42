import ExactAlgebra.Polynomial.Basic

/-!
Derivatives and integrals of polynomials.
-/

namespace ExactAlgebra.Polynomial

/-- The `n`-th derivative. -/
def derivative (p : Polynomial) (n : Nat) : Polynomial :=
  ofList (Coefficients.iteratedDerivative n p.ascending) p.label

/-- The antiderivative that has the value `c` at zero. -/
def integral (p : Polynomial) (c : Rat) : Polynomial :=
  ofList (Coefficients.antiderivative c p.ascending) p.label

theorem label_derivative (p : Polynomial) (n : Nat) : (p.derivative n).label = p.label := rfl

theorem label_integral (p : Polynomial) (c : Rat) : (p.integral c).label = p.label := rfl

end ExactAlgebra.Polynomial
