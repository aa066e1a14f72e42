import ExactAlgebra.Integer.Euclid
import ExactAlgebra.Polynomial.Arithmetic

/-!
Long division, greatest common divisors and primitive parts.

* `p / q` and `p % q` are quotient and remainder of long division; `divMod?` refuses the
  divisor zero.
* `gcd` is Euclid's algorithm. The result is monic, or zero if both operands are, and
  has the label of the last remainder that is not zero.
* `primitive` is the integer polynomial with content one and positive leading
  coefficient that has the same roots.
-/

namespace ExactAlgebra.Polynomial

open Coefficients

/-! ### Long division -/

instance : Div Polynomial where
  div p q := ofList (divMod q.ascending p.ascending).1 (p.jointLabel q)

instance : Mod Polynomial where
  mod p q := ofList (divMod q.ascending p.ascending).2 (p.jointLabel q)

/-- Quotient and remainder of long division by a nonzero polynomial. -/
def divMod? (p q : Polynomial) : Except Error (Polynomial × Polynomial) :=
  if q.isZero then .error .zeroDivisor else .ok (p / q, p % q)

/-- The remainder is shorter than the divisor, so that Euclid's loop ends. -/
theorem length_mod_lt (p : Polynomial) {q : Polynomial} (hq : q.isZero = false) :
    (p % q).ascending.length < q.ascending.length :=
  Nat.lt_of_le_of_lt (length_trim_le _) (length_remainder_lt (isZero_eq_false_iff.1 hq) _)

/-- A quotient by a divisor that is not longer is not zero. -/
theorem isZero_div {p q : Polynomial} (hq : q.isZero = false)
    (h : q.ascending.length ≤ p.ascending.length) : (p / q).isZero = false := by
  rw [isZero_eq_false_iff] at hq ⊢
  exact trim_quotient_ne_nil hq q.trimmed p.trimmed h

/-! ### The greatest common divisor -/

/-- The multiple of a polynomial with the leading coefficient one; zero stays zero. -/
def monic (p : Polynomial) : Polynomial :=
  if p.isZero then p else p.scale (1 / p.leadingCoefficient)

/-- The monic greatest common divisor. -/
def gcd (p q : Polynomial) : Polynomial :=
  if q.isZero then p.monic else gcd q (p % q)
termination_by q.ascending.length
decreasing_by exact length_mod_lt p (by simp_all)

/-- The monic greatest common divisor of a list of polynomials. -/
def gcdAll (ps : List Polynomial) : Polynomial := ps.foldl gcd (zero none)

theorem length_monic_le (p : Polynomial) : p.monic.ascending.length ≤ p.ascending.length := by
  unfold monic
  split
  · exact Nat.le_refl _
  · exact Nat.le_trans (length_trim_le _) (Nat.le_of_eq (length_scale ..))

theorem isZero_monic {p : Polynomial} (hp : p.isZero = false) : p.monic.isZero = false := by
  rw [monic, if_neg (by simp [hp])]
  refine isZero_scale hp ?_
  rw [Rat.div_def, Rat.one_mul]
  have := leadingCoefficient_ne_zero hp
  grind

/-- A divisor of a nonzero polynomial is not zero. -/
theorem isZero_gcd (p : Polynomial) {q : Polynomial} (hq : q.isZero = false) :
    (gcd p q).isZero = false := by
  fun_induction gcd p q with
  | case1 p q hzero =>
    rw [hq] at hzero
    cases hzero
  | case2 p q hne ih =>
    cases hr : (p % q).isZero with
    | true =>
      -- the run ends here, with the present divisor made monic
      rw [gcd, if_pos hr]
      exact isZero_monic hq
    | false => exact ih hr

/-- A divisor of a nonzero polynomial is no longer than it. -/
theorem length_gcd_le (p : Polynomial) {q : Polynomial} (hq : q.isZero = false) :
    (gcd p q).ascending.length ≤ q.ascending.length := by
  fun_induction gcd p q with
  | case1 p q hzero =>
    rw [hq] at hzero
    cases hzero
  | case2 p q hne ih =>
    cases hr : (p % q).isZero with
    | true =>
      rw [gcd, if_pos hr]
      exact length_monic_le q
    | false => exact Nat.le_trans (ih hr) (Nat.le_of_lt (length_mod_lt p hq))

/-! ### The primitive part -/

/-- The least common multiple of the denominators. -/
def commonDenominator (p : Polynomial) : Nat :=
  Integer.lcmAll (p.coefficients.map fun c => (c.den : Int))

/-- The coefficients times the least common multiple of their denominators. -/
def clearedCoefficients (p : Polynomial) : List Int :=
  p.coefficients.map fun c => c.num * ((p.commonDenominator / c.den : Nat) : Int)

/-- The integer polynomial with the same roots whose coefficients have no common divisor
and whose leading coefficient is positive; zero stays zero. -/
def primitive (p : Polynomial) : Polynomial :=
  if p.isZero then p
  else
    let ints := p.clearedCoefficients
    let content : Int := Integer.gcdAll ints
    let content := if ints.getLastD 0 < 0 then -content else content
    ofList (ints.map fun n => ((n / content : Int) : Rat)) p.label

/-- Whether all coefficients are integers. -/
def isIntegral (p : Polynomial) : Bool := p.ascending.all fun c => c.den = 1

end ExactAlgebra.Polynomial
