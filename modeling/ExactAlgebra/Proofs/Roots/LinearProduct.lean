import Mathlib.Algebra.Polynomial.Splits
import ExactAlgebra.Proofs.Polynomial.Division

/-!
Products of powers of linear factors.

`linearProduct` is the product of the factors `(x - r) ^ m` of a list of roots with
multiplicities. It is monic and splits. Over distinct roots the listed multiplicities are its
multiplicities (`rootMultiplicity_linearProduct`, `mem_iff_isRoot_linearProduct`), and it divides
what all of its factors divide (`linearProduct_dvd`).
-/

open Polynomial

namespace ExactAlgebra

/-- The product of the factors `(x - r) ^ m` of a list of roots with multiplicities. -/
noncomputable def linearProduct (roots : List (ℚ × ℕ)) : ℚ[X] :=
  (roots.map fun rm => (X - C rm.1) ^ rm.2).prod

@[simp] lemma linearProduct_nil : linearProduct [] = 1 := rfl

@[simp] lemma linearProduct_cons (r : ℚ) (m : ℕ) (roots : List (ℚ × ℕ)) :
    linearProduct ((r, m) :: roots) = (X - C r) ^ m * linearProduct roots := by
  simp [linearProduct]

/-! ### The listed roots -/

lemma monic_linearProduct (roots : List (ℚ × ℕ)) : (linearProduct roots).Monic := by
  induction roots with
  | nil => exact monic_one
  | cons rm roots ih =>
      rw [linearProduct_cons]
      exact ((monic_X_sub_C rm.1).pow rm.2).mul ih

lemma splits_linearProduct (roots : List (ℚ × ℕ)) : (linearProduct roots).Splits := by
  induction roots with
  | nil => exact Splits.one
  | cons rm roots ih =>
      rw [linearProduct_cons]
      exact ((Splits.X_sub_C rm.1).pow rm.2).mul ih

lemma eval_linearProduct_ne_zero {roots : List (ℚ × ℕ)} {x : ℚ}
    (hx : x ∉ roots.map Prod.fst) : (linearProduct roots).eval x ≠ 0 := by
  induction roots with
  | nil => simp
  | cons rm roots ih =>
      rw [List.map_cons, List.mem_cons, not_or] at hx
      rw [linearProduct_cons, eval_mul, eval_pow, eval_sub, eval_X, eval_C]
      exact mul_ne_zero (pow_ne_zero _ (sub_ne_zero.mpr hx.1)) (ih hx.2)

/-- A factor that does not vanish at a point does not change the multiplicity there. -/
lemma rootMultiplicity_mul_of_eval_ne_zero {p q : ℚ[X]} {x : ℚ} (hp : p ≠ 0)
    (hq : q.eval x ≠ 0) : (q * p).rootMultiplicity x = p.rootMultiplicity x := by
  have hq0 : q ≠ 0 := fun h => hq (by rw [h, eval_zero])
  rw [rootMultiplicity_mul (mul_ne_zero hq0 hp), rootMultiplicity_eq_zero hq, zero_add]

/-- The exponent of `x - r` is the multiplicity when the other factor does not vanish. -/
lemma rootMultiplicity_pow_mul {q : ℚ[X]} {r : ℚ} (m : ℕ) (hq : q.eval r ≠ 0) :
    ((X - C r) ^ m * q).rootMultiplicity r = m := by
  have hpow : ((X - C r) ^ m : ℚ[X]) ≠ 0 := pow_ne_zero _ (X_sub_C_ne_zero r)
  rw [mul_comm, rootMultiplicity_mul_of_eval_ne_zero hpow hq, rootMultiplicity_X_sub_C_pow]

/-- The power of `x - r` in a polynomial leaves a factor without the root `r`. -/
lemma exists_eq_pow_rootMultiplicity_mul {p : ℚ[X]} (hp : p ≠ 0) (r : ℚ) :
    ∃ q, p = (X - C r) ^ p.rootMultiplicity r * q ∧ ¬q.IsRoot r := by
  obtain ⟨q, hq, hdvd⟩ := exists_eq_pow_rootMultiplicity_mul_and_not_dvd p hp r
  exact ⟨q, hq, fun hroot => hdvd (dvd_iff_isRoot.mpr hroot)⟩

/-- A power of `x - r` does not change the multiplicity at another point. -/
lemma rootMultiplicity_pow_mul_of_ne {q : ℚ[X]} {r s : ℚ} (m : ℕ) (hq : q ≠ 0) (hsr : s ≠ r) :
    ((X - C r) ^ m * q).rootMultiplicity s = q.rootMultiplicity s := by
  refine rootMultiplicity_mul_of_eval_ne_zero hq ?_
  rw [eval_pow, eval_sub, eval_X, eval_C]
  exact pow_ne_zero m (sub_ne_zero.mpr hsr)

/-- Over distinct roots the multiplicities are the listed ones. -/
lemma rootMultiplicity_linearProduct {roots : List (ℚ × ℕ)} (hn : (roots.map Prod.fst).Nodup)
    {r : ℚ} {m : ℕ} (h : (r, m) ∈ roots) : (linearProduct roots).rootMultiplicity r = m := by
  induction roots with
  | nil => exact absurd h List.not_mem_nil
  | cons sn roots ih =>
      obtain ⟨s, n⟩ := sn
      rw [List.map_cons, List.nodup_cons] at hn
      rw [linearProduct_cons]
      rcases List.mem_cons.mp h with heq | hmem
      · obtain ⟨rfl, rfl⟩ := Prod.mk.inj heq
        exact rootMultiplicity_pow_mul m (eval_linearProduct_ne_zero hn.1)
      · have hrs : r ≠ s := fun hrs => hn.1 (List.mem_map.mpr ⟨(r, m), hmem, hrs⟩)
        rw [rootMultiplicity_pow_mul_of_ne n (monic_linearProduct roots).ne_zero hrs, ih hn.2 hmem]

/-- The entries over distinct roots are the roots with their multiplicities. -/
lemma mem_iff_isRoot_linearProduct {roots : List (ℚ × ℕ)} (hn : (roots.map Prod.fst).Nodup)
    (hpos : ∀ rm ∈ roots, rm.2 ≠ 0) (r : ℚ) (m : ℕ) :
    (r, m) ∈ roots ↔
      (linearProduct roots).IsRoot r ∧ m = (linearProduct roots).rootMultiplicity r := by
  constructor
  · intro h
    have hm := rootMultiplicity_linearProduct hn h
    refine ⟨?_, hm.symm⟩
    rw [← rootMultiplicity_pos (monic_linearProduct roots).ne_zero, hm]
    exact Nat.pos_of_ne_zero (hpos _ h)
  · rintro ⟨hroot, rfl⟩
    have hmem : r ∈ roots.map Prod.fst := by
      by_contra hr
      exact eval_linearProduct_ne_zero hr hroot
    obtain ⟨⟨s, m⟩, hsm, rfl⟩ := List.mem_map.mp hmem
    rwa [rootMultiplicity_linearProduct hn hsm]

/-! ### Divisibility -/

lemma isCoprime_X_sub_C_pow {q : ℚ[X]} {r : ℚ} (m : ℕ) (hq : q.eval r ≠ 0) :
    IsCoprime ((X - C r) ^ m) q := by
  refine IsCoprime.pow_left ((irreducible_X_sub_C r).coprime_iff_not_dvd.mpr ?_)
  rwa [dvd_iff_isRoot]

/-- A polynomial that vanishes at none of the roots is coprime to the product. -/
lemma isCoprime_linearProduct {p : ℚ[X]} {roots : List (ℚ × ℕ)}
    (h : ∀ rm ∈ roots, p.eval rm.1 ≠ 0) : IsCoprime p (linearProduct roots) := by
  induction roots with
  | nil => exact isCoprime_one_right
  | cons rm roots ih =>
      rw [linearProduct_cons]
      exact (isCoprime_X_sub_C_pow rm.2 (h rm List.mem_cons_self)).symm.mul_right
        (ih fun sn hsn => h sn (List.mem_cons_of_mem rm hsn))

lemma pow_dvd_linearProduct {roots : List (ℚ × ℕ)} {r : ℚ} {m : ℕ} (h : (r, m) ∈ roots) :
    (X - C r) ^ m ∣ linearProduct roots :=
  List.dvd_prod (List.mem_map.mpr ⟨(r, m), h, rfl⟩)

/-- Over distinct roots, the other factors do not vanish at a root. -/
lemma exists_linearProduct_eq_pow_mul {roots : List (ℚ × ℕ)} (hn : (roots.map Prod.fst).Nodup)
    {r : ℚ} {m : ℕ} (h : (r, m) ∈ roots) :
    ∃ q, linearProduct roots = (X - C r) ^ m * q ∧ q.eval r ≠ 0 := by
  obtain ⟨q, hq, hroot⟩ := exists_eq_pow_rootMultiplicity_mul (monic_linearProduct roots).ne_zero r
  rw [rootMultiplicity_linearProduct hn h] at hq
  exact ⟨q, hq, hroot⟩

/-- Over distinct roots, the product divides what all of its factors divide. -/
lemma linearProduct_dvd {roots : List (ℚ × ℕ)} (hn : (roots.map Prod.fst).Nodup) {p : ℚ[X]}
    (h : ∀ rm ∈ roots, (X - C rm.1) ^ rm.2 ∣ p) : linearProduct roots ∣ p := by
  induction roots with
  | nil => exact one_dvd p
  | cons rm roots ih =>
      rw [List.map_cons, List.nodup_cons] at hn
      rw [linearProduct_cons]
      refine (isCoprime_X_sub_C_pow rm.2 (eval_linearProduct_ne_zero hn.1)).mul_dvd
        (h rm List.mem_cons_self) ?_
      exact ih hn.2 fun sn hsn => h sn (List.mem_cons_of_mem rm hsn)

/-! ### The product multiplied out -/

namespace Polynomial

/-- The product of the factors `(x - r) ^ m`, multiplied out. -/
def linearFactors (roots : List (ℚ × ℕ)) : Polynomial :=
  roots.foldr (fun rm p => linear rm.1 none ^ rm.2 * p) (one none)

@[simp] lemma toPoly_linearFactors (roots : List (ℚ × ℕ)) :
    (linearFactors roots).toPoly = linearProduct roots := by
  induction roots with
  | nil => exact toPoly_one none
  | cons rm roots ih =>
      change (linear rm.1 none ^ rm.2 * linearFactors roots).toPoly = _
      rw [toPoly_mul, toPoly_pow, toPoly_linear, ih, linearProduct_cons]

end Polynomial

end ExactAlgebra
