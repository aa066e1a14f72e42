import Mathlib.Algebra.Polynomial.Lifts
import Mathlib.Data.Nat.Cast.Field
import Mathlib.Data.Int.Cast.Field
import ExactAlgebra.Proofs.Polynomial.Denotation

/-!
Integer coefficients and the primitive part.

* `isIntegral_iff_lifts`: a polynomial has integer coefficients exactly when it comes from
  `ℤ[X]`.
* `toPoly_primitive`: the primitive part is a nonzero multiple of the polynomial. Every
  denominator divides their least common multiple (`dvd_lcmAll`), so clearing it multiplies
  by a number, and every cleared coefficient is divisible by their content (`gcdAll_dvd`).
* `isIntegral_primitive`: its coefficients are integers.
-/

open Polynomial

namespace ExactAlgebra

/-! ### Common divisors and multiples of a list -/

namespace Integer

/-- The common multiple only grows: it stays a multiple of what it was at the start, and it is one
of every number that has been taken in. -/
lemma dvd_foldl_lcm (ns : List ℤ) (l : ℕ) :
    l ∣ ns.foldl (fun l n => Nat.lcm l n.natAbs) l
      ∧ ∀ n ∈ ns, n.natAbs ∣ ns.foldl (fun l n => Nat.lcm l n.natAbs) l := by
  induction ns generalizing l with
  | nil => exact ⟨dvd_rfl, fun n hn => by cases hn⟩
  | cons m ns ih =>
      obtain ⟨hl, hns⟩ := ih (Nat.lcm l m.natAbs)
      refine ⟨(Nat.dvd_lcm_left l _).trans hl, fun n hn => ?_⟩
      rcases List.mem_cons.mp hn with rfl | hn
      · exact (Nat.dvd_lcm_right l _).trans hl
      · exact hns n hn

/-- A common multiple of nonzero numbers is never zero on the way. -/
lemma foldl_lcm_ne_zero {ns : List ℤ} (h : ∀ n ∈ ns, n ≠ 0) {l : ℕ} (hl : l ≠ 0) :
    ns.foldl (fun l n => Nat.lcm l n.natAbs) l ≠ 0 := by
  induction ns generalizing l with
  | nil => exact hl
  | cons m ns ih =>
      refine ih (fun n hn => h n (List.mem_cons_of_mem m hn)) (Nat.lcm_ne_zero hl ?_)
      exact Int.natAbs_ne_zero.mpr (h m List.mem_cons_self)

/-- Every member of a list divides the least common multiple. -/
lemma dvd_lcmAll {ns : List ℤ} {n : ℤ} (hn : n ∈ ns) : n.natAbs ∣ lcmAll ns :=
  (dvd_foldl_lcm ns 1).2 n hn

/-- The least common multiple of nonzero numbers is not zero. -/
lemma lcmAll_ne_zero {ns : List ℤ} (h : ∀ n ∈ ns, n ≠ 0) : lcmAll ns ≠ 0 :=
  foldl_lcm_ne_zero h one_ne_zero

/-- The divisors of the present greatest common divisor are those of the one at the start that
divide every number taken in since. -/
lemma dvd_foldl_gcd_iff (ns : List ℤ) (g d : ℕ) :
    d ∣ ns.foldl (fun g n => Nat.gcd g n.natAbs) g ↔ d ∣ g ∧ ∀ n ∈ ns, (d : ℤ) ∣ n := by
  induction ns generalizing g with
  | nil => simp
  | cons m ns ih =>
      rw [List.foldl_cons, ih, Nat.dvd_gcd_iff, and_assoc, List.forall_mem_cons,
        Int.natCast_dvd]

/-- The divisors of the greatest common divisor are the common divisors. -/
lemma dvd_gcdAll_iff {ns : List ℤ} {d : ℕ} : d ∣ gcdAll ns ↔ ∀ n ∈ ns, (d : ℤ) ∣ n :=
  (dvd_foldl_gcd_iff ns 0 d).trans (and_iff_right (dvd_zero d))

/-- The greatest common divisor divides every member of a list. -/
lemma gcdAll_dvd {ns : List ℤ} {n : ℤ} (hn : n ∈ ns) : (gcdAll ns : ℤ) ∣ n :=
  dvd_gcdAll_iff.mp dvd_rfl n hn

/-- A nonzero member keeps the greatest common divisor from being zero. -/
lemma gcdAll_ne_zero {ns : List ℤ} {n : ℤ} (hn : n ∈ ns) (h0 : n ≠ 0) : gcdAll ns ≠ 0 := by
  intro h
  have hdvd := gcdAll_dvd hn
  rw [h] at hdvd
  exact h0 (Int.zero_dvd.mp (by simpa using hdvd))

end Integer

namespace Polynomial

/-! ### Integer coefficients -/

/-- A polynomial is integral when no coefficient has a denominator. -/
lemma isIntegral_iff {p : Polynomial} :
    p.isIntegral = true ↔ ∀ c ∈ p.coefficients, c.den = 1 := by
  rw [isIntegral, List.all_eq_true, coefficients]
  split
  · next h => rw [List.isEmpty_iff.mp h]; simp
  · simp

/-- Integer coefficients are those of a polynomial over `ℤ`. -/
lemma isIntegral_iff_lifts {p : Polynomial} :
    p.isIntegral = true ↔ p.toPoly ∈ Polynomial.lifts (Int.castRingHom ℚ) := by
  rw [lifts_iff_coeff_lifts, isIntegral, List.all_eq_true]
  constructor
  · intro h n
    rw [toPoly, Coefficients.coeff_toPoly, List.getD_eq_getElem?_getD]
    cases hn : p.ascending[n]? with
    | none => exact ⟨0, by simp⟩
    | some c =>
        have hc : c.den = 1 := by simpa using h c (List.mem_of_getElem? hn)
        exact ⟨c.num, by simpa using Rat.coe_int_num_of_den_eq_one hc⟩
  · intro h c hc
    obtain ⟨n, hn⟩ := List.mem_iff_getElem?.mp hc
    obtain ⟨m, hm⟩ := h n
    rw [toPoly, Coefficients.coeff_toPoly, List.getD_eq_getElem?_getD, hn] at hm
    have hcm : c = (m : ℚ) := by simpa using hm.symm
    rw [hcm]; simp

/-- A list of integers is a polynomial over `ℤ`. -/
lemma toPoly_mem_lifts {cs : List ℚ} (h : ∀ c ∈ cs, ∃ n : ℤ, (n : ℚ) = c) :
    Coefficients.toPoly cs ∈ Polynomial.lifts (Int.castRingHom ℚ) := by
  induction cs with
  | nil => exact zero_mem _
  | cons c cs ih =>
      obtain ⟨n, rfl⟩ := h c List.mem_cons_self
      have hcs := ih fun d hd => h d (List.mem_cons_of_mem _ hd)
      exact add_mem (C_mem_lifts (Int.castRingHom ℚ) n) (mul_mem (X_mem_lifts _) hcs)

/-! ### The primitive part -/

/-- Denominators are not zero, and neither is their common multiple. -/
lemma commonDenominator_ne_zero (p : Polynomial) : p.commonDenominator ≠ 0 := by
  refine Integer.lcmAll_ne_zero fun n hn => ?_
  obtain ⟨c, _, rfl⟩ := List.mem_map.mp hn
  exact_mod_cast c.den_nz

/-- Clearing the denominators multiplies by their least common multiple. -/
lemma cast_cleared {p : Polynomial} {c : ℚ} (hc : c ∈ p.coefficients) :
    ((c.num * ((p.commonDenominator / c.den : ℕ) : ℤ) : ℤ) : ℚ) = c * p.commonDenominator := by
  have hdvd : c.den ∣ p.commonDenominator :=
    Integer.dvd_lcmAll (n := (c.den : ℤ)) (List.mem_map.mpr ⟨c, hc, rfl⟩)
  have hden : (c.den : ℚ) ≠ 0 := by exact_mod_cast c.den_nz
  rw [Int.cast_mul, Int.cast_natCast, Nat.cast_div hdvd hden]
  conv_rhs => rw [← Rat.num_div_den c]
  ring

/-- The content of the cleared coefficients with the sign of the leading one. -/
def signedContent (p : Polynomial) : ℤ :=
  if p.clearedCoefficients.getLastD 0 < 0 then -(Integer.gcdAll p.clearedCoefficients : ℤ)
  else Integer.gcdAll p.clearedCoefficients

/-- The content divides the coefficients whatever its sign is. -/
lemma signedContent_dvd {p : Polynomial} {n : ℤ} (hn : n ∈ p.clearedCoefficients) :
    p.signedContent ∣ n := by
  have hdvd := Integer.gcdAll_dvd hn
  rw [signedContent]
  split
  · exact Int.neg_dvd.mpr hdvd
  · exact hdvd

/-- The leading coefficient, cleared. -/
lemma cast_getLastD_cleared {p : Polynomial} (hp : p.isZero = false) :
    ((p.clearedCoefficients.getLastD 0 : ℤ) : ℚ) = p.leadingCoefficient * p.commonDenominator := by
  have hne := isZero_eq_false_iff.mp hp
  have hcoeff : p.coefficients = p.ascending := if_neg (by simpa using hne)
  rw [clearedCoefficients, hcoeff, leadingCoefficient, List.getLastD_eq_getLast?,
    List.getLastD_eq_getLast?, List.getLast?_map, List.getLast?_eq_some_getLast hne]
  exact cast_cleared (by rw [hcoeff]; exact List.getLast_mem hne)

/-- Clearing denominators keeps the leading coefficient away from zero. -/
lemma getLastD_cleared_ne_zero {p : Polynomial} (hp : p.isZero = false) :
    p.clearedCoefficients.getLastD 0 ≠ 0 := by
  have hM : (p.commonDenominator : ℚ) ≠ 0 := by exact_mod_cast p.commonDenominator_ne_zero
  have hcast := cast_getLastD_cleared hp
  intro h0
  rw [h0, Int.cast_zero] at hcast
  exact mul_ne_zero (leadingCoefficient_ne_zero hp) hM hcast.symm

/-- A nonzero polynomial has a content. -/
lemma gcdAll_cleared_ne_zero {p : Polynomial} (hp : p.isZero = false) :
    Integer.gcdAll p.clearedCoefficients ≠ 0 := by
  have hlast := getLastD_cleared_ne_zero hp
  have hne : p.clearedCoefficients ≠ [] := fun h => hlast (by rw [h, List.getLastD_nil])
  rw [List.getLastD_eq_getLast?, List.getLast?_eq_some_getLast hne, Option.getD_some] at hlast
  exact Integer.gcdAll_ne_zero (List.getLast_mem hne) hlast

/-- Up to its sign the content is the greatest common divisor. -/
lemma natAbs_signedContent (p : Polynomial) :
    p.signedContent.natAbs = Integer.gcdAll p.clearedCoefficients := by
  rw [signedContent]
  split
  · rw [Int.natAbs_neg, Int.natAbs_natCast]
  · exact Int.natAbs_natCast _

lemma signedContent_ne_zero {p : Polynomial} (hp : p.isZero = false) :
    p.signedContent ≠ 0 := by
  rw [← Int.natAbs_ne_zero, natAbs_signedContent]
  exact gcdAll_cleared_ne_zero hp

/-- The primitive part of a nonzero polynomial has the cleared coefficients over their content. -/
lemma primitive_eq {p : Polynomial} (hp : p.isZero = false) :
    p.primitive
      = ofList (p.clearedCoefficients.map fun n => ((n / p.signedContent : ℤ) : ℚ)) p.label := by
  rw [primitive, if_neg (by simp [hp])]
  rfl

/-- The factor between a polynomial and its primitive part. -/
def primitiveFactor (p : Polynomial) : ℚ := p.commonDenominator / p.signedContent

/-- The factor between a polynomial and its primitive part is not zero. -/
lemma primitiveFactor_ne_zero {p : Polynomial} (hp : p.isZero = false) :
    p.primitiveFactor ≠ 0 := by
  refine div_ne_zero ?_ ?_
  · exact_mod_cast p.commonDenominator_ne_zero
  · exact_mod_cast signedContent_ne_zero hp

/-- The primitive part is a multiple of the polynomial. -/
lemma toPoly_primitive_eq {p : Polynomial} (hp : p.isZero = false) :
    p.primitive.toPoly = C p.primitiveFactor * p.toPoly := by
  have h0 : (p.signedContent : ℚ) ≠ 0 := by exact_mod_cast signedContent_ne_zero hp
  rw [primitive_eq hp, toPoly_ofList, ← toPoly_ofList_coefficients p, ← Coefficients.toPoly_scale,
    Coefficients.scale, clearedCoefficients, List.map_map]
  congr 1
  refine List.map_congr_left fun c hc => ?_
  have hdvd := signedContent_dvd (p := p) (List.mem_map.mpr ⟨c, hc, rfl⟩)
  rw [Function.comp_apply, Int.cast_div hdvd h0, cast_cleared hc, primitiveFactor, mul_div_assoc]

/-- The primitive part is a nonzero multiple of the polynomial. -/
lemma toPoly_primitive {p : Polynomial} (hp : p.isZero = false) :
    ∃ k : ℚ, k ≠ 0 ∧ p.primitive.toPoly = C k * p.toPoly :=
  ⟨p.primitiveFactor, primitiveFactor_ne_zero hp, toPoly_primitive_eq hp⟩

/-- The primitive part is integral, since the content divides every coefficient. -/
lemma isIntegral_primitive {p : Polynomial} (hp : p.isZero = false) :
    p.primitive.isIntegral = true := by
  rw [isIntegral_iff_lifts, primitive_eq hp, toPoly_ofList]
  refine toPoly_mem_lifts fun c hc => ?_
  obtain ⟨n, _, rfl⟩ := List.mem_map.mp hc
  exact ⟨_, rfl⟩

end Polynomial

end ExactAlgebra
