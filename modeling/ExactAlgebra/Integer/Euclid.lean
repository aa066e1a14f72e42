import ExactAlgebra.Error

/-!
Euclid's algorithm on integers of any sign.

* `gcdAll`, `lcmAll`: the greatest common divisor and the least common multiple of
  a list, `0` and `1` for the empty one.
* `bezout a b` is the greatest common divisor `g` together with coefficients that
  satisfy `a * x + b * y = g` (`bezout_identity`).
* `modularInverse a m` is the inverse of `a` modulo `m`, between `0` and `|m|`.
-/

namespace ExactAlgebra.Integer

/-- The greatest common divisor of a list of integers. -/
def gcdAll (ns : List Int) : Nat := ns.foldl (fun g n => Nat.gcd g n.natAbs) 0

/-- The least common multiple of a list of integers, zero if one of them is. -/
def lcmAll (ns : List Int) : Nat := ns.foldl (fun l n => Nat.lcm l n.natAbs) 1

/-! ### Bezout coefficients -/

/-- A greatest common divisor and the coefficients that combine it. -/
structure Bezout where
  gcd : Nat
  x : Int
  y : Int
  deriving DecidableEq, Repr

/-- Euclid's algorithm on `a` and `b`, where `a` is the combination with the
coefficients `x, y` of two given numbers and `b` the one with `r, s`. -/
def bezoutFrom (a b : Nat) (x r y s : Int) : Bezout :=
  if b = 0 then ⟨a, x, y⟩
  else bezoutFrom b (a % b) r (x - (a / b : Nat) * r) s (y - (a / b : Nat) * s)
termination_by b
decreasing_by exact Nat.mod_lt a (by omega)

/-- Bezout coefficients of two integers. When one of them is zero the coefficients
are the signs; otherwise Euclid's algorithm runs on the absolute values and the
signs are multiplied in at the end. -/
def bezout (a b : Int) : Bezout :=
  if a = 0 ∨ b = 0 then ⟨a.natAbs + b.natAbs, a.sign, b.sign⟩
  else
    let e := bezoutFrom a.natAbs b.natAbs 1 0 0 1
    ⟨e.gcd, a.sign * e.x, b.sign * e.y⟩

/-- The combinations that the algorithm keeps stay combinations of the two numbers
it began with. -/
theorem bezoutFrom_identity {p q : Int} {a b : Nat} {x r y s : Int}
    (ha : p * x + q * y = a) (hb : p * r + q * s = b) :
    p * (bezoutFrom a b x r y s).x + q * (bezoutFrom a b x r y s).y
      = (bezoutFrom a b x r y s).gcd := by
  fun_induction bezoutFrom a b x r y s with
  | case1 a x r y s => exact ha
  | case2 a b x r y s hb0 ih =>
    have hd : (b : Int) * ((a / b : Nat) : Int) + ((a % b : Nat) : Int) = a := by
      exact_mod_cast Nat.div_add_mod a b
    -- the remainder is combined by the differences of the coefficients
    exact ih hb (by grind)

/-- The remainders are those of Euclid's algorithm. -/
theorem bezoutFrom_gcd (a b : Nat) (x r y s : Int) :
    (bezoutFrom a b x r y s).gcd = Nat.gcd a b := by
  fun_induction bezoutFrom a b x r y s with
  | case1 a x r y s => exact (Nat.gcd_zero_right a).symm
  | case2 a b x r y s hb ih => rw [ih, Nat.gcd_comm a b, Nat.gcd_rec b a, Nat.gcd_comm]

/-- The loop ends at the greatest common divisor. -/
theorem bezout_gcd (a b : Int) : (bezout a b).gcd = Int.gcd a b := by
  unfold bezout
  split
  · rename_i h
    rcases h with rfl | rfl <;> simp
  · simp [bezoutFrom_gcd, Int.gcd]

/-- The greatest common divisor is the combination that is returned with it. -/
theorem bezout_identity (a b : Int) :
    a * (bezout a b).x + b * (bezout a b).y = (bezout a b).gcd := by
  unfold bezout
  split
  · rename_i h
    rcases h with rfl | rfl <;> simp [Int.mul_sign_self]
  · have h := bezoutFrom_identity (p := a.natAbs) (q := b.natAbs) (a := a.natAbs)
      (b := b.natAbs) (x := 1) (r := 0) (y := 0) (s := 1) (by simp) (by simp)
    simp only [← h, ← Int.mul_assoc, Int.mul_sign_self]

/-! ### Inverses modulo an integer -/

/-- The inverse of `a` modulo `m`, reduced to `0, …, |m| - 1`. -/
def modularInverse (a m : Int) : Except Error Int :=
  if m = 0 then .error .zeroModulus
  else
    let e := bezout a m
    if e.gcd = 1 then .ok (e.x % m.natAbs) else .error (.noModularInverse a m e.gcd)

end ExactAlgebra.Integer
