import ExactAlgebra.Error

/-!
The divisors of an integer by trial division up to its square root.

* `divisors n limit` lists the positive divisors of `n` in ascending order. It makes
  as many trial divisions as the square root of `|n|` and refuses to make more than
  the limit.
* `mem_smallDivisors`: the trial divisions find exactly the divisors in their range.
-/

namespace ExactAlgebra.Integer

/-- The trial divisions that one listing of divisors may make when no limit is given;
they cover integers of fourteen digits. -/
def defaultTrialDivisions : Int := 10000000

/-- The divisors of `n` from `1` to `k` in ascending order, in front of `found`. -/
def smallDivisors (n : Nat) : (k : Nat) → (found : List Nat) → List Nat
  | 0, found => found
  | k + 1, found => smallDivisors n k (if n % (k + 1) = 0 then (k + 1) :: found else found)

/-- The positive divisors of a positive integer: those up to the square root, and
then their cofactors, where the square root itself is no second time a cofactor. -/
def divisorsOf (n : Nat) : List Nat :=
  let small := smallDivisors n n.sqrt []
  small ++ ((small.filter fun d => d * d != n).map fun d => n / d).reverse

/-- The positive divisors of an integer in ascending order, within a limit on the
number of trial divisions. -/
def divisors (n : Int) (limit : Int) : Except Error (List Nat) :=
  if n = 0 then .error .divisorsOfZero
  else if limit < (n.natAbs.sqrt : Int) then
    .error (.limitExceeded (.divisors n.natAbs) (toString limit))
  else .ok (divisorsOf n.natAbs)

/-- The loop counts down to one and keeps what it has found. -/
theorem mem_smallDivisors {n k d : Nat} {found : List Nat} :
    d ∈ smallDivisors n k found ↔ d ∈ found ∨ (1 ≤ d ∧ d ≤ k ∧ d ∣ n) := by
  induction k generalizing found with
  | zero => simp [smallDivisors]; omega
  | succ k ih =>
    rw [smallDivisors, ih]
    by_cases h : n % (k + 1) = 0
    · have hk : k + 1 ∣ n := Nat.dvd_of_mod_eq_zero h
      simp only [h, if_true, List.mem_cons]
      constructor
      · rintro ((rfl | hd) | ⟨h₁, h₂, h₃⟩)
        · exact .inr ⟨by omega, by omega, hk⟩
        · exact .inl hd
        · exact .inr ⟨h₁, by omega, h₃⟩
      · rintro (hd | ⟨h₁, h₂, h₃⟩)
        · exact .inl (.inr hd)
        · by_cases hdk : d = k + 1
          · exact .inl (.inl hdk)
          · exact .inr ⟨h₁, by omega, h₃⟩
    · simp only [h, if_false]
      constructor
      · rintro (hd | ⟨h₁, h₂, h₃⟩)
        · exact .inl hd
        · exact .inr ⟨h₁, by omega, h₃⟩
      · rintro (hd | ⟨h₁, h₂, h₃⟩)
        · exact .inl hd
        · refine .inr ⟨h₁, ?_, h₃⟩
          have : d ≠ k + 1 := fun hd => h (Nat.mod_eq_zero_of_dvd (hd ▸ h₃))
          omega

end ExactAlgebra.Integer
