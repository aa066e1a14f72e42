/-!
Primality of integers of any size.

A number that no small prime divides is prime if it passes two tests whose failures
do not overlap on any known number: the strong test with base two, a statement on
powers, and the strong Lucas test, a statement on the sequences `U` and `V` of the
recurrence `x² = x - Q` whose discriminant `D = 1 - 4Q` is no square modulo the number.

* `isPrime` is the test on integers.
* `powMod`, `jacobi`, `lucas` are the arithmetic it rests on.
-/

namespace ExactAlgebra.Integer

/-! ### Arithmetic modulo a number -/

/-- The power `b ^ e` modulo `n`, by repeated squaring. -/
def powMod (b e n : Nat) : Nat :=
  if e = 0 then 1 % n
  else
    let half := powMod b (e / 2) n
    let square := half * half % n
    if e % 2 = 0 then square else square * b % n
termination_by e
decreasing_by omega

/-- A number as a power of two times an odd number: the exponent and the odd part. -/
def oddPart (n : Nat) : Nat × Nat :=
  if n = 0 ∨ n % 2 = 1 then (0, n)
  else
    let (s, d) := oddPart (n / 2)
    (s + 1, d)
termination_by n
decreasing_by omega

/-- The Jacobi symbol `(a / n)` for an odd `n`, computed by the law of reciprocity. -/
def jacobi (a n : Nat) : Int :=
  if a = 0 then (if n = 1 then 1 else 0)
  else if a % 2 = 0 then
    let j := jacobi (a / 2) n
    if n % 8 = 3 ∨ n % 8 = 5 then -j else j
  else
    let j := jacobi (n % a) a
    if a % 4 = 3 ∧ n % 4 = 3 then -j else j
termination_by a
decreasing_by
  · omega
  · exact Nat.mod_lt n (by omega)

/-- Half of a number modulo an odd `n`. -/
def halfMod (a : Int) (n : Nat) : Int :=
  let a := a % n
  if a % 2 = 0 then a / 2 else (a + n) / 2

/-- The terms `U k`, `V k` of the Lucas sequences with `P = 1` and the given `Q`, and
the power `Q ^ k`, all modulo an odd `n`: doubling the index, and then one step. -/
def lucas (q : Int) (n k : Nat) : Int × Int × Int :=
  if k = 0 then (0, 2 % n, 1 % n)
  else
    let (u, v, qk) := lucas q n (k / 2)
    let u₂ := u * v % n
    let v₂ := (v * v - 2 * qk) % n
    let q₂ := qk * qk % n
    if k % 2 = 0 then (u₂, v₂, q₂)
    else (halfMod (u₂ + v₂) n, halfMod ((1 - 4 * q) * u₂ + v₂) n, q₂ * q % n)
termination_by k
decreasing_by omega

/-! ### The two tests -/

/-- Whether one of `x, x², x⁴, …` (`count` of them) is `n - 1` modulo `n`. -/
def hasMinusOne (n : Nat) : (count : Nat) → Nat → Bool
  | 0, _ => false
  | count + 1, x => x = n - 1 || hasMinusOne n count (x * x % n)

/-- The strong test with base `b`: with `n - 1 = 2 ^ s * d`, either `b ^ d` is one or
one of its first `s` squarings is minus one. -/
def strongTest (b n : Nat) : Bool :=
  let (s, d) := oddPart (n - 1)
  let x := powMod b d n
  x = 1 || hasMinusOne n s x

/-- Whether one of `V k, V 2k, V 4k, …` (`count` of them) is zero modulo `n`. -/
def hasZero (n : Nat) : (count : Nat) → (v qk : Int) → Bool
  | 0, _, _ => false
  | count + 1, v, qk => v = 0 || hasZero n count ((v * v - 2 * qk) % n) (qk * qk % n)

/-- The `i`-th discriminant of the sequence `5, -7, 9, -11, …`. -/
def discriminant (i : Nat) : Int :=
  let d : Int := 2 * i + 5
  if i % 2 = 0 then d else -d

/-- The first discriminant that is no square modulo `n`. A number that is no square
has one early in the sequence. -/
def lucasDiscriminant? (n : Nat) : Option Int :=
  (List.range (n.log2 * n.log2 + 64)).findSome? fun i =>
    if jacobi (discriminant i % n).toNat n = -1 then some (discriminant i) else none

/-- The strong Lucas test: with `n + 1 = 2 ^ s * d`, either `U d` is zero modulo `n` or
one of `V d, V 2d, …` is. -/
def lucasTest (n : Nat) : Bool :=
  match lucasDiscriminant? n with
  | none => false
  | some disc =>
    let (s, d) := oddPart (n + 1)
    let (u, v, qd) := lucas ((1 - disc) / 4) n d
    u = 0 || hasZero n s v qd

/-- The primes below one hundred. -/
def smallPrimes : List Nat :=
  [2, 3, 5, 7, 11, 13, 17, 19, 23, 29, 31, 37, 41, 43, 47, 53, 59, 61, 67, 71, 73, 79, 83, 89, 97]

/-- Primality of an integer; negative numbers, zero and one are not prime. -/
def isPrime (n : Int) : Bool :=
  let m := n.toNat
  if m < 2 then false
  else match smallPrimes.find? (m % · = 0) with
    | some p => m = p
    | none =>
      if m < 10000 then true
      else strongTest 2 m && m.sqrt * m.sqrt != m && lucasTest m

end ExactAlgebra.Integer
