/-!
Roots of natural numbers.

* `floorRoot n k` is the greatest natural number whose `k`-th power is at most `n`, found
  one binary digit after the other.
* `exactRoot?` is the root of a perfect power.
* `perfectPower?` writes a number as a power with the greatest possible exponent.
* `partialFactors` splits off the prime factors up to a bound.
-/

namespace ExactAlgebra.Integer

/-- The greatest natural number whose `k`-th power is at most `n`, for a positive `k`. -/
def floorRoot (n k : Nat) : Nat :=
  let digits := n.log2 / k + 1
  (List.range digits).foldl
    (fun r i =>
      let candidate := r + Nat.pow 2 (digits - 1 - i)
      if Nat.pow candidate k ≤ n then candidate else r) 0

/-- The natural number whose `k`-th power is `n`. -/
def exactRoot? (n k : Nat) : Option Nat :=
  let r := floorRoot n k
  if Nat.pow r k = n then some r else none

/-- The greatest exponent above one, not above the bound, with which a number is a power,
and the base of that power. -/
def powerUpTo? (n : Nat) : (bound : Nat) → Option (Nat × Nat)
  | 0 => none
  | 1 => none
  | k + 1 =>
    match exactRoot? n (k + 1) with
    | some r => some (r, k + 1)
    | none => powerUpTo? n k

/-- A number above one as a power with the greatest possible exponent, if that exponent is
above one. -/
def perfectPower? (n : Nat) : Option (Nat × Nat) := powerUpTo? n n.log2

/-- How often `p` divides `n`, up to a bound, and what is left of `n` then. -/
def takeOut (p : Nat) : (bound n : Nat) → Nat × Nat
  | 0, n => (0, n)
  | bound + 1, n =>
    if n % p = 0 then
      let (k, rest) := takeOut p bound (n / p)
      (k + 1, rest)
    else (0, n)

/-- The factors of `n` from `p` on, where `steps` more divisors are tried. What is left
over is a factor of its own, or the power that it is. -/
def factorsFrom : (steps p n : Nat) → List (Nat × Nat)
  | 0, _, n =>
    if n ≤ 1 then []
    else match perfectPower? n with
      | some power => [power]
      | none => [(n, 1)]
  | steps + 1, p, n =>
    if n ≤ 1 then []
    else if n < p * p then [(n, 1)]
    else if n % p = 0 then
      let (k, rest) := takeOut p (n.log2 + 1) n
      (p, k) :: factorsFrom steps (p + 1) rest
    else factorsFrom steps (p + 1) n

/-- The prime factors below `2 ^ 15` of a positive number with their exponents, and the
cofactor. -/
def partialFactors (n : Nat) : List (Nat × Nat) := factorsFrom (Nat.pow 2 15) 2 n

end ExactAlgebra.Integer
