import ExactAlgebra.Integer.Root

/-!
Powers of positive numbers with fractions as exponents, in simplest form.

* `Radical` is a rational number times powers of natural numbers with exponents between
  zero and one.
* `Radical.ofNat` takes all that is a whole power out of a power of a natural number, and
  reduces the exponent of the rest.
* `Radical.ofRat` is the power of a positive rational number; no root stays in a
  denominator.
-/

namespace ExactAlgebra

/-- A rational number times powers of natural numbers. -/
structure Radical where
  coefficient : Rat
  roots : List (Nat × Rat)

namespace Radical

/-- A rational number. -/
def const (c : Rat) : Radical := ⟨c, []⟩

/-- The product, in which the roots are not combined. -/
def mul (a b : Radical) : Radical := ⟨a.coefficient * b.coefficient, a.roots ++ b.roots⟩

/-- The product of a list. -/
def product (rs : List Radical) : Radical := rs.foldl mul (const 1)

/-- The prime factors of a number with their exponents; a power is taken as it is. -/
def powerFactors (n : Nat) : List (Nat × Nat) :=
  match Integer.perfectPower? n with
  | some power => [power]
  | none => Integer.partialFactors n

/-- The power of a positive natural number with a positive fraction as the exponent.

The exponents of the factors are multiplied by the numerator and divided by the
denominator. The quotients leave the root; a remainder that has a divisor in common with
the denominator leaves a simpler root of its own, and the others stay together. Each of the
roots left over is of a smaller number or has a smaller denominator; the fuel covers the
number of digits. -/
def ofNatWith : (fuel : Nat) → Nat → Rat → Radical
  | 0, n, e => ⟨1, [(n, e)]⟩
  | fuel + 1, n, e =>
    let p := e.num.toNat
    let q := e.den
    match Integer.exactRoot? n q with
    | some r => const ((r ^ p : Nat) : Rat)
    | none =>
      let parts := (powerFactors n).map fun f => (f.1, f.2 * p)
      let whole : Nat := parts.foldl (fun w f => w * f.1 ^ (f.2 / q)) 1
      let rests := (parts.map fun f => (f.1, f.2 % q)).filter fun f => f.2 != 0
      let reducible := rests.filter fun f => Nat.gcd f.2 q != 1
      let others := rests.filter fun f => Nat.gcd f.2 q == 1
      let divisor : Nat := others.foldl (fun g f => Nat.gcd g f.2) 0
      let joint : Nat := others.foldl (fun m f => m * f.1 ^ (f.2 / divisor)) 1
      if joint = n ∧ whole = 1 ∧ reducible.isEmpty then ⟨1, [(n, e)]⟩
      else
        product <|
          const (whole : Rat) ::
          ofNatWith fuel joint ((divisor : Rat) / (q : Rat)) ::
          reducible.map fun f => ofNatWith fuel f.1 ((f.2 : Rat) / (q : Rat))

/-- The power of a positive natural number with a positive fraction as the exponent. -/
def ofNat (n : Nat) (e : Rat) : Radical := ofNatWith (n.log2 + e.den + 1) n e

/-- The power of a positive number with a fraction as the exponent. A negative exponent
inverts the number, and the denominator is raised to the exponent that is missing to the
next integer, so that it stands in a whole power below. -/
def ofRat (r e : Rat) : Radical :=
  let r := if e < 0 then 1 / r else r
  let e := if e < 0 then -e else e
  let whole := e.floor.toNat + 1
  product [ofNat r.num.toNat e,
    if r.den = 1 then const 1 else ofNat r.den ((whole : Rat) - e),
    const (1 / ((r.den : Rat) ^ whole))]

end Radical

end ExactAlgebra
