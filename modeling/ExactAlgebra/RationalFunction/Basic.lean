import ExactAlgebra.Polynomial.Division
import ExactAlgebra.Polynomial.Printer

/-!
Rational functions: quotients of two polynomials.

A `RationalFunction` keeps numerator and denominator as they are given; the denominator
is not zero. Numerator and denominator have labels of their own.

* Equality `r == s` is equality of the cross products.
* Sum, difference, product and power follow the rules for fractions and reduce nothing;
  `div?` and `reciprocal?` refuse the divisor zero.
* `simplify` is the canonical form: no common factor, and a monic denominator.
* `eval?` is the value at a point that is no pole.
-/

namespace ExactAlgebra

/-- A quotient of two polynomials. -/
structure RationalFunction where
  numerator : Polynomial
  denominator : Polynomial
  denominator_ne_zero : denominator.isZero = false
  deriving DecidableEq

namespace RationalFunction

open ExactAlgebra.Polynomial

/-- The quotient of two polynomials. -/
def ofPolynomials? (numerator denominator : Polynomial) : Except Error RationalFunction :=
  if h : denominator.isZero = false then .ok ⟨numerator, denominator, h⟩
  else .error .zeroDenominator

/-- A polynomial as a rational function, over the denominator one. -/
def ofPolynomial (p : Polynomial) : RationalFunction := ⟨p, .one none, isZero_one none⟩

/-- A number as a rational function. -/
def const (c : Rat) : RationalFunction := ofPolynomial (.const c none)

/-- The rational function whose numerator and denominator have the quotients of the given
pairs as coefficients. -/
def ofPairs? (numerator denominator : List (Int × Int)) (label : Option String) :
    Except Error RationalFunction := do
  let n ← Polynomial.ofPairs? numerator label
  let d ← Polynomial.ofPairs? denominator label
  ofPolynomials? n d

/-- Whether a rational function is zero. -/
def isZero (r : RationalFunction) : Bool := r.numerator.isZero

/-- Whether the numerator has the smaller degree. -/
def isProper (r : RationalFunction) : Bool := r.numerator.degree < r.denominator.degree

/-- Equality of rational functions: `a / b = c / d` when `a d = b c`. -/
instance : BEq RationalFunction where
  beq r s := r.numerator * s.denominator == r.denominator * s.numerator

/-- The text of a rational function: `(numerator)/(denominator)`, or `(numerator)` over
the denominator one. -/
def toText (r : RationalFunction) : String :=
  if r.denominator == .one none then "(" ++ r.numerator.toText ++ ")"
  else "(" ++ r.numerator.toText ++ ")/(" ++ r.denominator.toText ++ ")"

/-! ### Field operations -/

instance : Add RationalFunction where
  add r s := ⟨r.numerator * s.denominator + s.numerator * r.denominator,
    r.denominator * s.denominator, isZero_mul r.denominator_ne_zero s.denominator_ne_zero⟩

instance : Sub RationalFunction where
  sub r s := ⟨r.numerator * s.denominator - s.numerator * r.denominator,
    r.denominator * s.denominator, isZero_mul r.denominator_ne_zero s.denominator_ne_zero⟩

instance : Mul RationalFunction where
  mul r s := ⟨r.numerator * s.numerator, r.denominator * s.denominator,
    isZero_mul r.denominator_ne_zero s.denominator_ne_zero⟩

instance : Neg RationalFunction where
  neg r := ⟨-r.numerator, r.denominator, r.denominator_ne_zero⟩

/-- The quotient by a nonzero rational function. -/
def div? (r s : RationalFunction) : Except Error RationalFunction :=
  if h : s.numerator.isZero = false then
    .ok ⟨r.numerator * s.denominator, r.denominator * s.numerator,
      isZero_mul r.denominator_ne_zero h⟩
  else .error .zeroFunctionDivisor

/-- The reciprocal of a nonzero rational function. -/
def reciprocal? (r : RationalFunction) : Except Error RationalFunction :=
  if h : r.numerator.isZero = false then .ok ⟨r.denominator, r.numerator, h⟩
  else .error .zeroReciprocal

instance : Pow RationalFunction Nat where
  pow r n := ⟨r.numerator ^ n, r.denominator ^ n, isZero_pow r.denominator_ne_zero n⟩

/-- The power with an integer exponent; a negative one takes the power of the
reciprocal. -/
def pow? (r : RationalFunction) (n : Int) : Except Error RationalFunction :=
  if n < 0 then do .ok ((← r.reciprocal?) ^ n.natAbs) else .ok (r ^ n.natAbs)

/-! ### Evaluation -/

/-- The value at a point that is no zero of the denominator. -/
def eval? (r : RationalFunction) (x : Rat) : Except Error Rat :=
  let d := r.denominator.eval x
  if d = 0 then .error (.pole x r.toText) else .ok (r.numerator.eval x / d)

/-! ### The canonical form -/

/-- The greatest common divisor of numerator and denominator. -/
def commonFactor (r : RationalFunction) : Polynomial := r.numerator.gcd r.denominator

/-- The common factor divides the denominator, which is not zero. -/
theorem isZero_commonFactor (r : RationalFunction) : r.commonFactor.isZero = false :=
  isZero_gcd _ r.denominator_ne_zero

/-- What is left of the denominator is not zero either. -/
theorem isZero_reducedDenominator (r : RationalFunction) :
    (r.denominator / r.commonFactor).isZero = false :=
  isZero_div r.isZero_commonFactor (length_gcd_le _ r.denominator_ne_zero)

/-- The canonical form: the common factor cancelled and the denominator monic. -/
def simplify (r : RationalFunction) : RationalFunction :=
  let g := r.commonFactor
  let d := r.denominator / g
  let c := 1 / d.leadingCoefficient
  ⟨(r.numerator / g).scale c, d.scale c,
    isZero_scale r.isZero_reducedDenominator (by
      have := leadingCoefficient_ne_zero r.isZero_reducedDenominator
      grind)⟩

end RationalFunction

end ExactAlgebra
