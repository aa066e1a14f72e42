import Mathlib.Algebra.Order.Ring.Int
import Mathlib.Tactic.Linarith
import Mathlib.Tactic.Ring
import ExactAlgebra.Integer.Euclid

/-!
The size of Bezout coefficients.

Along Euclid's algorithm each of the two coefficients changes its sign from one remainder to the
next, so that its sizes add up without cancellation: for neighbours `a`, `b` in the sequence of
remainders, with the coefficients `x`, `r` of one of the two numbers, `a * |r| + b * |x|` is the
other number (`Balanced`). A step keeps this (`Balanced.step`). Where the algorithm ends, the last
remainder is a divisor of the one before it, which bounds the coefficient that is returned
(`gcd_mul_natAbs_bezoutFrom_le`).

Main statement: `bezout_small`.
-/

namespace ExactAlgebra.Integer

/-! ### The coefficients of neighbouring remainders -/

/-- The coefficients `x` and `r` that one of two numbers has in the neighbouring remainders `a`
and `b`, where the other number is `n`. -/
structure Balanced (n a b : ℕ) (x r : ℤ) : Prop where
  opposite : x * r ≤ 0
  balance : a * r.natAbs + b * x.natAbs = n

/-- Numbers of opposite signs do not cancel in a difference. -/
lemma natAbs_sub_mul {x r : ℤ} (h : x * r ≤ 0) (k : ℕ) :
    (x - k * r).natAbs = x.natAbs + k * r.natAbs := by
  have hk : (0 : ℤ) ≤ k := Int.natCast_nonneg k
  have hsize : (-(k * r)).natAbs = k * r.natAbs := by
    rw [Int.natAbs_neg, Int.natAbs_mul, Int.natAbs_natCast]
  rw [sub_eq_add_neg, ← hsize]
  rcases mul_nonpos_iff.mp h with ⟨hx, hr⟩ | ⟨hx, hr⟩
  · exact Int.natAbs_add_of_nonneg hx (neg_nonneg.mpr (mul_nonpos_of_nonneg_of_nonpos hk hr))
  · exact Int.natAbs_add_of_nonpos hx (neg_nonpos.mpr (mul_nonneg hk hr))

namespace Balanced

variable {n a b : ℕ} {x r : ℤ}

/-- A division with remainder keeps the balance. -/
lemma step (h : Balanced n a b x r) :
    Balanced n b (a % b) r (x - (a / b : ℕ) * r) where
  opposite := by
    have hsquare : 0 ≤ ((a / b : ℕ) : ℤ) * (r * r) :=
      mul_nonneg (Int.natCast_nonneg _) (mul_self_nonneg r)
    calc r * (x - (a / b : ℕ) * r) = x * r - (a / b : ℕ) * (r * r) := by ring
      _ ≤ 0 := by linarith [h.opposite]
  balance := by
    rw [natAbs_sub_mul h.opposite, ← h.balance]
    conv_rhs => rw [← Nat.div_add_mod a b]
    ring

/-- The coefficient of the smaller remainder is bounded by the balance. -/
lemma mul_natAbs_le (h : Balanced n a b x r) (hba : b ≤ a) : b * r.natAbs ≤ n :=
  calc b * r.natAbs ≤ a * r.natAbs := Nat.mul_le_mul_right _ hba
    _ ≤ a * r.natAbs + b * x.natAbs := Nat.le_add_right _ _
    _ = n := h.balance

end Balanced

/-! ### The whole run -/

/-- The coefficients at the end of the algorithm, for numbers `p` and `q` and positive
remainders. -/
lemma gcd_mul_natAbs_bezoutFrom_le {p q a b : ℕ} {x r y s : ℤ} (ha : 0 < a) (hb : 0 < b)
    (hx : Balanced q a b x r) (hy : Balanced p a b y s) :
    Nat.gcd a b * (bezoutFrom a b x r y s).x.natAbs ≤ q
      ∧ Nat.gcd a b * (bezoutFrom a b x r y s).y.natAbs ≤ p := by
  fun_induction bezoutFrom a b x r y s with
  | case1 a x r y s => exact absurd hb (Nat.lt_irrefl 0)
  | case2 a b x r y s hb0 ih =>
      -- the run ends one step before the smaller remainder becomes zero
      rcases Nat.eq_zero_or_pos (a % b) with hmod | hmod
      · have hdvd : b ∣ a := Nat.dvd_of_mod_eq_zero hmod
        have hba : b ≤ a := Nat.le_of_dvd ha hdvd
        rw [hmod, bezoutFrom, if_pos rfl, Nat.gcd_eq_right hdvd]
        exact ⟨hx.mul_natAbs_le hba, hy.mul_natAbs_le hba⟩
      · rw [Nat.gcd_comm, Nat.gcd_rec, Nat.gcd_comm]
        exact ih hb hmod hx.step hy.step

/-- The greatest common divisor of two integers is that of the list of the two. -/
lemma gcdAll_pair (a b : ℤ) : gcdAll [a, b] = Int.gcd a b := by
  simp [gcdAll, Int.gcd]

/-- The coefficients of two numbers other than zero. -/
lemma gcd_mul_natAbs_bezout_le {a b : ℤ} (ha : a ≠ 0) (hb : b ≠ 0) :
    Int.gcd a b * (bezout a b).x.natAbs ≤ b.natAbs
      ∧ Int.gcd a b * (bezout a b).y.natAbs ≤ a.natAbs := by
  have hstart : Balanced b.natAbs a.natAbs b.natAbs 1 0 := ⟨by simp, by simp⟩
  have hstart' : Balanced a.natAbs a.natAbs b.natAbs 0 1 := ⟨by simp, by simp⟩
  have hrun := gcd_mul_natAbs_bezoutFrom_le (Int.natAbs_pos.mpr ha) (Int.natAbs_pos.mpr hb)
    hstart hstart'
  rw [bezout, if_neg (by simp [ha, hb])]
  simpa only [Int.gcd, Int.natAbs_mul, Int.natAbs_sign_of_ne_zero ha,
    Int.natAbs_sign_of_ne_zero hb, one_mul] using hrun

lemma abs_le_div {g : ℕ} (hg : 0 < g) {x b : ℤ} (h : g * x.natAbs ≤ b.natAbs) :
    |x| ≤ |b| / g := by
  rw [Int.le_ediv_iff_mul_le (by exact_mod_cast hg), Int.abs_eq_natAbs, Int.abs_eq_natAbs, mul_comm]
  exact_mod_cast h

/-- **Bezout coefficients are exact and small.** For integers of any sign, the first part of the
result, a natural number, is their greatest common divisor, and the coefficients combine the two
integers to it. Where neither integer is zero, each coefficient is bounded in absolute value by the
other integer over the greatest common divisor. -/
theorem bezout_small (a b : ℤ) :
    (bezout a b).gcd = Int.gcd a b
    ∧ (bezout a b).gcd = gcdAll [a, b]
    ∧ a * (bezout a b).x + b * (bezout a b).y = (bezout a b).gcd
    ∧ (a ≠ 0 → b ≠ 0 → |(bezout a b).x| ≤ |b| / (bezout a b).gcd
      ∧ |(bezout a b).y| ≤ |a| / (bezout a b).gcd) := by
  refine ⟨bezout_gcd a b, by rw [bezout_gcd, gcdAll_pair], bezout_identity a b, fun ha hb => ?_⟩
  have hg : 0 < Int.gcd a b := Int.gcd_pos_of_ne_zero_left b ha
  obtain ⟨hx, hy⟩ := gcd_mul_natAbs_bezout_le ha hb
  rw [bezout_gcd]
  exact ⟨abs_le_div hg hx, abs_le_div hg hy⟩

/-- The coefficients of `-240` and `46`, where the first step only exchanges the two in the run for
`46` and `-240`. -/
theorem bezout_small_signs :
    (-240 : ℤ) ≠ 0 ∧ (46 : ℤ) ≠ 0
      ∧ bezout (-240) 46 = ⟨2, 9, 47⟩ ∧ bezout 46 (-240) = ⟨2, 47, 9⟩
      ∧ |(bezout (-240) 46).x| ≤ |46| / (bezout (-240) 46).gcd
      ∧ |(bezout (-240) 46).y| ≤ |-240| / (bezout (-240) 46).gcd := by
  have ha : (-240 : ℤ) ≠ 0 := by decide
  have hb : (46 : ℤ) ≠ 0 := by decide
  exact ⟨ha, hb, by decide +kernel, by decide +kernel, (bezout_small (-240) 46).2.2.2 ha hb⟩

end ExactAlgebra.Integer
