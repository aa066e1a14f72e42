import Mathlib.Data.Int.ModEq
import Mathlib.RingTheory.Int.Basic
import Mathlib.Tactic.Linarith
import Mathlib.Tactic.Ring
import ExactAlgebra.Integer.Euclid
import ExactAlgebra.Proofs.Outcome

/-!
Inverses modulo an integer of any sign.

An inverse of `a` modulo `m` exists exactly when the two are coprime, and then it is unique among
the residues `0, …, |m| - 1`, since it can be cancelled. So `modularInverse` is determined by what
an inverse is (`modularInverse_eq_ok_iff`), and the laws of inverses follow from that: the inverse
of an inverse is the residue of the number itself, and the inverse of a product is the product of
the inverses.

Main statement: `modularInverse_exact`.
-/

namespace ExactAlgebra.Integer

variable {a b m x y : ℤ}

/-- What it means that `x` is the inverse of `a` among the residues modulo `m`. -/
@[mk_iff]
structure IsInverse (a m x : ℤ) : Prop where
  nonneg : 0 ≤ x
  lt_abs : x < |m|
  mul_modEq : a * x ≡ 1 [ZMOD m]

/-! ### Residues -/

/-- A residue is determined by its class. -/
lemma eq_of_modEq (hx : 0 ≤ x) (hxm : x < |m|) (hy : 0 ≤ y) (hym : y < |m|)
    (h : x ≡ y [ZMOD m]) : x = y := by
  have hmod : x % |m| = y % |m| := by rw [Int.emod_abs, Int.emod_abs]; exact h
  rwa [Int.emod_eq_of_lt hx hxm, Int.emod_eq_of_lt hy hym] at hmod

lemma emod_abs_modEq (x m : ℤ) : x % |m| ≡ x [ZMOD m] := by
  rw [Int.emod_abs]
  exact Int.mod_modEq x m

/-- The residue of a number that is an inverse up to congruence is the inverse. -/
lemma isInverse_emod (hm : m ≠ 0) (h : a * x ≡ 1 [ZMOD m]) : IsInverse a m (x % |m|) where
  nonneg := Int.emod_nonneg x (abs_ne_zero.mpr hm)
  lt_abs := Int.emod_lt_of_pos x (abs_pos.mpr hm)
  mul_modEq := ((emod_abs_modEq x m).mul_left a).trans h

namespace IsInverse

/-- Only numbers that are coprime to the modulus have an inverse. -/
lemma gcd_eq_one (h : IsInverse a m x) : Int.gcd a m = 1 := by
  obtain ⟨k, hk⟩ := h.mul_modEq.dvd
  exact Int.isCoprime_iff_gcd_eq_one.mp ⟨x, k, by linarith⟩

/-- Two inverses of one number are equal: each is the other one times the product of the number
and its inverse. -/
lemma unique (hx : IsInverse a m x) (hy : IsInverse a m y) : x = y := by
  refine eq_of_modEq hx.nonneg hx.lt_abs hy.nonneg hy.lt_abs ?_
  calc x = 1 * x := (one_mul x).symm
    _ ≡ a * y * x [ZMOD m] := hy.mul_modEq.symm.mul_right x
    _ = a * x * y := by ring
    _ ≡ 1 * y [ZMOD m] := hx.mul_modEq.mul_right y
    _ = y := one_mul y

/-- A number is the inverse of its inverse. -/
lemma symm (hm : m ≠ 0) (h : IsInverse a m x) : IsInverse x m (a % |m|) :=
  isInverse_emod hm (by rw [mul_comm]; exact h.mul_modEq)

/-- Inverses multiply. -/
lemma mul (hm : m ≠ 0) (hx : IsInverse a m x) (hy : IsInverse b m y) :
    IsInverse (a * b) m (x * y % |m|) :=
  isInverse_emod hm (by rw [mul_mul_mul_comm]; exact hx.mul_modEq.mul hy.mul_modEq)

end IsInverse

/-! ### The inverse that is returned -/

lemma modularInverse_eq (hm : m ≠ 0) :
    modularInverse a m
      = if Int.gcd a m = 1 then .ok ((bezout a m).x % |m|)
        else .error (.noModularInverse a m (Int.gcd a m)) := by
  rw [modularInverse, if_neg hm, Int.abs_eq_natAbs]
  simp only [bezout_gcd]

/-- The coefficient of a number in the combination to one is its inverse. -/
lemma isInverse_bezout (hm : m ≠ 0) (h : Int.gcd a m = 1) :
    IsInverse a m ((bezout a m).x % |m|) := by
  refine isInverse_emod hm (Int.modEq_iff_dvd.mpr ⟨(bezout a m).y, ?_⟩)
  have hidentity := bezout_identity a m
  rw [bezout_gcd, h, Nat.cast_one] at hidentity
  linarith

/-- What is returned is the inverse, and an inverse is returned. -/
lemma modularInverse_eq_ok_iff (hm : m ≠ 0) : modularInverse a m = .ok x ↔ IsInverse a m x := by
  rw [modularInverse_eq hm]
  constructor
  · intro h
    split at h
    · next hgcd =>
        cases h
        exact isInverse_bezout hm hgcd
    · cases h
  · intro h
    rw [if_pos h.gcd_eq_one, (isInverse_bezout hm h.gcd_eq_one).unique h]

lemma exists_modularInverse (hm : m ≠ 0) (h : Int.gcd a m = 1) :
    ∃ x, modularInverse a m = .ok x ∧ IsInverse a m x :=
  ⟨_, by rw [modularInverse_eq hm, if_pos h], isInverse_bezout hm h⟩

/-- **Modular inverses are exact over all signs.** For a modulus other than zero an inverse is
returned exactly for the numbers that are coprime to the modulus, and all others are refused as a
division by zero. What is returned is the one residue `0 ≤ x < |m|` whose product with the number is
congruent to one; modulo `1` and `-1` this is zero. The inverse of the inverse of a number is its
residue, and the inverse of a product is the residue of the product of the inverses. The modulus
zero is refused as an invalid argument. -/
theorem modularInverse_exact :
    (∀ a m : ℤ, m ≠ 0 →
      ((∃ x, modularInverse a m = .ok x) ↔ Int.gcd a m = 1)
      ∧ (failure (modularInverse a m) = some .divisionByZero ↔ Int.gcd a m ≠ 1)
      ∧ (∀ x, modularInverse a m = .ok x ↔ 0 ≤ x ∧ x < |m| ∧ a * x ≡ 1 [ZMOD m])
      ∧ (|m| = 1 → modularInverse a m = .ok 0)
      ∧ (Int.gcd a m = 1 →
        ∃ x, modularInverse a m = .ok x ∧ modularInverse x m = .ok (a % |m|))
      ∧ ∀ b, Int.gcd a m = 1 → Int.gcd b m = 1 →
        ∃ x y, modularInverse a m = .ok x ∧ modularInverse b m = .ok y
          ∧ modularInverse (a * b) m = .ok (x * y % |m|))
    ∧ ∀ a : ℤ, failure (modularInverse a 0) = some .invalidArgument := by
  refine ⟨fun a m hm => ⟨⟨?_, ?_⟩, ?_, fun x => ?_, fun hunit => ?_, fun ha => ?_,
    fun b ha hb => ?_⟩, fun a => rfl⟩
  · rintro ⟨x, hx⟩
    exact ((modularInverse_eq_ok_iff hm).mp hx).gcd_eq_one
  · intro ha
    obtain ⟨x, hx, -⟩ := exists_modularInverse hm ha
    exact ⟨x, hx⟩
  · rw [modularInverse_eq hm]
    split <;> simp_all [failure, Error.kind]
  · rw [modularInverse_eq_ok_iff hm, isInverse_iff]
  · -- zero is the only residue, and everything is congruent to it
    have hdvd : m ∣ 1 := (abs_dvd m 1).mp (by rw [hunit])
    refine (modularInverse_eq_ok_iff hm).mpr ⟨le_rfl, by rw [hunit]; exact one_pos, ?_⟩
    exact Int.modEq_iff_dvd.mpr (by simpa using hdvd)
  · obtain ⟨x, hx, hinverse⟩ := exists_modularInverse hm ha
    exact ⟨x, hx, (modularInverse_eq_ok_iff hm).mpr (hinverse.symm hm)⟩
  · obtain ⟨x, hx, hinverse⟩ := exists_modularInverse hm ha
    obtain ⟨y, hy, hinverse'⟩ := exists_modularInverse hm hb
    exact ⟨x, y, hx, hy, (modularInverse_eq_ok_iff hm).mpr (hinverse.mul hm hinverse')⟩

/-- Inverses modulo `-7`: of `-3`, of its inverse `2`, and of the product of `-3` and `5`. -/
theorem modularInverse_exact_negative_modulus :
    (-7 : ℤ) ≠ 0 ∧ Int.gcd (-3) (-7) = 1 ∧ Int.gcd 5 (-7) = 1
      ∧ modularInverse (-3) (-7) = .ok 2 ∧ modularInverse 5 (-7) = .ok 3
      ∧ (∃ x, modularInverse (-3) (-7) = .ok x ∧ modularInverse x (-7) = .ok (-3 % |-7|))
      ∧ (∃ x y, modularInverse (-3) (-7) = .ok x ∧ modularInverse 5 (-7) = .ok y
        ∧ modularInverse (-3 * 5) (-7) = .ok (x * y % |-7|))
      ∧ failure (modularInverse 6 (-9)) = some .divisionByZero
      ∧ |(-1 : ℤ)| = 1 ∧ modularInverse 6 (-1) = .ok 0 := by
  have hm : (-7 : ℤ) ≠ 0 := by decide
  have ha : Int.gcd (-3) (-7) = 1 := by decide
  have hb : Int.gcd 5 (-7) = 1 := by decide
  obtain ⟨hcoprime, -⟩ := modularInverse_exact
  obtain ⟨-, -, hexact, -, hdouble, hproduct⟩ := hcoprime (-3) (-7) hm
  refine ⟨hm, ha, hb, (hexact 2).mpr (by decide), ?_, hdouble ha, hproduct 5 ha hb, ?_,
    by decide, ?_⟩
  · exact ((hcoprime 5 (-7) hm).2.2.1 3).mpr (by decide)
  · exact (hcoprime 6 (-9) (by decide)).2.1.mpr (by decide)
  · exact (hcoprime 6 (-1) (by decide)).2.2.2.1 (by decide)

end ExactAlgebra.Integer
