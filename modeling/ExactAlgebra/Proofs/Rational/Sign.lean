import Mathlib.Algebra.Order.Ring.Rat
import Mathlib.Data.Sign.Basic
import Mathlib.Tactic.Ring
import ExactAlgebra.Roots.Signs

/-!
Signs and absolute values of rational numbers.

The sign of a number is that of the ordered field (`rationalSign_eq_cast`), so that it takes
products to products and powers to powers. In a sum the number that is greater in absolute value
gives the sign (`rationalSign_add_of_abs_lt`).
-/

namespace ExactAlgebra

/-- The absolute value is that of the ordered field. -/
lemma ratAbs_eq (c : ℚ) : c.abs = |c| := by
  rw [Rat.abs]
  split
  · next h => rw [abs_of_nonneg h]
  · next h => rw [abs_of_neg (not_le.mp h)]

/-- A sign is `1` or `-1`. -/
def IsSign (s : ℤ) : Prop := s = 1 ∨ s = -1

/-- The sign is that of the ordered field, read as an integer. -/
lemma rationalSign_eq_cast (r : ℚ) : rationalSign r = ((SignType.sign r : SignType) : ℤ) := by
  rw [rationalSign]
  rcases lt_trichotomy r 0 with h | rfl | h
  · rw [sign_neg h, Int.sign_eq_neg_one_of_neg (Rat.num_neg.mpr h)]
    rfl
  · rw [sign_zero]
    rfl
  · rw [sign_pos h, Int.sign_eq_one_of_pos (Rat.num_pos.mpr h)]
    rfl

/-- Only zero has neither of the two signs. -/
lemma isSign_rationalSign {r : ℚ} (hr : r ≠ 0) : IsSign (rationalSign r) := by
  rw [rationalSign]
  rcases lt_or_gt_of_ne hr with h | h
  · exact .inr (Int.sign_eq_neg_one_of_neg (Rat.num_neg.mpr h))
  · exact .inl (Int.sign_eq_one_of_pos (Rat.num_pos.mpr h))

/-- The negative has the opposite sign. -/
@[simp] lemma rationalSign_neg (r : ℚ) : rationalSign (-r) = -rationalSign r := by
  rw [rationalSign, Rat.num_neg_eq_neg_num, Int.sign_neg, rationalSign]

/-- Signs multiply. -/
lemma rationalSign_mul (r s : ℚ) : rationalSign (r * s) = rationalSign r * rationalSign s := by
  rw [rationalSign_eq_cast, rationalSign_eq_cast, rationalSign_eq_cast, sign_mul,
    SignType.coe_mul]

/-- The sign of a positive number is `1`. -/
lemma rationalSign_of_pos {r : ℚ} (hr : 0 < r) : rationalSign r = 1 :=
  Int.sign_eq_one_of_pos (Rat.num_pos.mpr hr)

/-- The sign of a power is the power of the sign. -/
lemma rationalSign_pow (r : ℚ) (n : ℕ) : rationalSign (r ^ n) = rationalSign r ^ n := by
  induction n with
  | zero => rw [pow_zero, pow_zero, rationalSign_of_pos one_pos]
  | succ n ih => rw [pow_succ, pow_succ, rationalSign_mul, ih]

/-- The summand that is greater in absolute value gives the sign. -/
lemma rationalSign_add_of_abs_lt {r s : ℚ} (h : |r| < |s|) :
    rationalSign (r + s) = rationalSign s := by
  have hpos : ∀ r s : ℚ, 0 < s → |r| < |s| → rationalSign (r + s) = rationalSign s := by
    intro r s hs h
    rw [abs_of_pos hs] at h
    have hsum : 0 < r + s := neg_lt_iff_pos_add.mp (abs_lt.mp h).1
    rw [rationalSign_of_pos hsum, rationalSign_of_pos hs]
  rcases lt_trichotomy s 0 with hs | rfl | hs
  · -- the signs of the negatives
    have hneg := hpos (-r) (-s) (neg_pos.mpr hs) (by rwa [abs_neg, abs_neg])
    rwa [← neg_add, rationalSign_neg, rationalSign_neg, neg_inj] at hneg
  · rw [abs_zero] at h
    exact absurd h (abs_nonneg r).not_gt
  · exact hpos r s hs h

end ExactAlgebra
