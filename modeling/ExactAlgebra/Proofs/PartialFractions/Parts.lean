import Mathlib.Algebra.Polynomial.Taylor
import ExactAlgebra.PartialFractions.Basic
import ExactAlgebra.Proofs.RationalFunction.Reduced
import ExactAlgebra.Proofs.Roots.LinearProduct

/-!
Sums of simple fractions, grouped by their poles.

* **One pole.** The fractions `c₁ / (x - r), …, c_m / (x - r) ^ m` add up to one quotient over
  `(x - r) ^ m`, with the numerator `poleNumerator`. It determines the coefficients
  (`poleNumerator_inj`), also modulo `(x - r) ^ m` (`eq_of_pow_dvd_sub`).
* **Canonical form.** A `PolePart` is the group of terms of one pole; its last coefficient is
  not zero. `Decomposition.IsCanonical` says that a sum of terms is made of the groups of
  ascending poles.
* **All poles.** `commonNumerator` and `commonDenominator` are the sum of all groups. Modulo
  the power of one pole only the group of that pole is left in the numerator
  (`pow_dvd_commonNumerator_sub`), the quotient is in lowest terms
  (`isCoprime_commonNumerator`), and the groups are determined by it (`parts_unique`).
-/

open Polynomial

namespace ExactAlgebra

/-! ### One pole -/

/-- The numerator over `(x - r) ^ m` of the fractions `c₁ / (x - r), …, c_m / (x - r) ^ m`. -/
noncomputable def poleNumerator (r : ℚ) (cs : List ℚ) : ℚ[X] :=
  (Coefficients.toPoly cs.reverse).comp (X - C r)

@[simp] lemma poleNumerator_nil (r : ℚ) : poleNumerator r [] = 0 := by simp [poleNumerator]

lemma poleNumerator_cons (r c : ℚ) (cs : List ℚ) :
    poleNumerator r (c :: cs) = C c * (X - C r) ^ cs.length + poleNumerator r cs := by
  rw [poleNumerator, poleNumerator, List.reverse_cons, Coefficients.toPoly_append]
  simp only [Coefficients.toPoly_cons, Coefficients.toPoly_nil, mul_zero, add_zero,
    List.length_reverse, add_comp, mul_comp, X_pow_comp, C_comp]
  ring

lemma poleNumerator_eq_taylor (r : ℚ) (cs : List ℚ) :
    poleNumerator r cs = taylor (-r) (Coefficients.toPoly cs.reverse) := by
  rw [poleNumerator, taylor_apply, C_neg, sub_eq_add_neg]

lemma degree_poleNumerator_lt (r : ℚ) (cs : List ℚ) :
    (poleNumerator r cs).degree < cs.length := by
  rw [poleNumerator_eq_taylor, degree_taylor, ← List.length_reverse]
  exact Coefficients.degree_toPoly_lt cs.reverse

/-- The value at the pole is the coefficient of the highest power. -/
lemma eval_poleNumerator (r : ℚ) (cs : List ℚ) :
    (poleNumerator r cs).eval r = cs.getLastD 0 := by
  rw [poleNumerator, eval_comp, eval_sub, eval_X, eval_C, sub_self, ← coeff_zero_eq_eval_zero,
    Coefficients.coeff_toPoly, List.getD_eq_getElem?_getD, ← List.head?_eq_getElem?,
    List.head?_reverse, List.getLastD_eq_getLast?]

/-- The numerator determines the coefficients. -/
lemma poleNumerator_inj {r : ℚ} {cs ds : List ℚ} (hlen : cs.length = ds.length) :
    poleNumerator r cs = poleNumerator r ds ↔ cs = ds := by
  rw [poleNumerator_eq_taylor, poleNumerator_eq_taylor, taylor_inj]
  refine ⟨fun h => ?_, fun h => by rw [h]⟩
  rw [← List.reverse_inj]
  exact Coefficients.eq_of_toPoly_eq (by simpa using hlen) h

/-- The numerator modulo the power of the pole determines the coefficients. -/
lemma eq_of_pow_dvd_sub {r : ℚ} {cs ds : List ℚ} (hlen : cs.length = ds.length) {n q : ℚ[X]}
    (hq : q.eval r ≠ 0) (hc : (X - C r) ^ cs.length ∣ n - q * poleNumerator r cs)
    (hd : (X - C r) ^ cs.length ∣ n - q * poleNumerator r ds) : cs = ds := by
  have hdiff : (X - C r) ^ cs.length ∣ q * (poleNumerator r ds - poleNumerator r cs) := by
    have h := dvd_sub hc hd
    rwa [show n - q * poleNumerator r cs - (n - q * poleNumerator r ds)
      = q * (poleNumerator r ds - poleNumerator r cs) by ring] at h
  have hdvd := (isCoprime_X_sub_C_pow cs.length hq).dvd_of_dvd_mul_left hdiff
  have hdeg : (poleNumerator r ds - poleNumerator r cs).degree
      < ((X - C r) ^ cs.length : ℚ[X]).degree := by
    rw [degree_pow, degree_X_sub_C, nsmul_one]
    refine lt_of_le_of_lt (degree_sub_le _ _) (max_lt ?_ (degree_poleNumerator_lt r cs))
    rw [hlen]
    exact degree_poleNumerator_lt r ds
  have hzero := eq_zero_of_dvd_of_degree_lt hdvd hdeg
  exact ((poleNumerator_inj hlen).mp (sub_eq_zero.mp hzero).symm)

/-! ### The groups of terms -/

lemma SimpleFraction.toRatFunc_toRationalFunction (t : SimpleFraction) (label : Option String) :
    (t.toRationalFunction label).toRatFunc
      = algebraMap ℚ[X] (RatFunc ℚ) (C t.coefficient)
        / algebraMap ℚ[X] (RatFunc ℚ) ((X - C t.root) ^ t.power.toNat) := by
  rw [RationalFunction.toRatFunc, toRationalFunction, Polynomial.toPoly_const,
    Polynomial.toPoly_ofRoots, List.map_replicate, List.prod_replicate]

/-- The terms of one pole in canonical form: the coefficients of the powers `1, …, m` of
`1 / (x - root)`, that of the power `m` not being zero. -/
@[ext]
structure PolePart where
  root : ℚ
  coefficients : List ℚ
  top_ne_zero : coefficients.getLastD 0 ≠ 0

namespace PolePart

/-- The highest power. -/
def order (g : PolePart) : ℕ := g.coefficients.length

/-- The terms in the order of their powers. -/
def terms (g : PolePart) : List SimpleFraction :=
  g.coefficients.zipIdx.map fun c => ⟨g.root, c.2 + 1, c.1⟩

lemma order_ne_zero (g : PolePart) : g.order ≠ 0 := by
  intro h
  apply g.top_ne_zero
  rw [List.eq_nil_of_length_eq_zero h, List.getLastD_nil]

/-- The numerator over `(x - root) ^ order`. -/
noncomputable def numerator (g : PolePart) : ℚ[X] := poleNumerator g.root g.coefficients

lemma eval_numerator_ne_zero (g : PolePart) : g.numerator.eval g.root ≠ 0 := by
  rw [numerator, eval_poleNumerator]
  exact g.top_ne_zero

/-- The fractions from the power `k + 1` on, over their highest power. -/
lemma sum_zipIdx_toRatFunc (r : ℚ) (cs : List ℚ) (k : ℕ) (label : Option String) :
    ((cs.zipIdx k).map fun c =>
        ((SimpleFraction.mk r (c.2 + 1) c.1).toRationalFunction label).toRatFunc).sum
      = algebraMap ℚ[X] (RatFunc ℚ) (poleNumerator r cs)
        / algebraMap ℚ[X] (RatFunc ℚ) ((X - C r) ^ (k + cs.length)) := by
  have hpow : ∀ n, algebraMap ℚ[X] (RatFunc ℚ) ((X - C r) ^ n) ≠ 0 := fun n =>
    RatFunc.algebraMap_ne_zero (pow_ne_zero n (X_sub_C_ne_zero r))
  induction cs generalizing k with
  | nil => simp
  | cons c cs ih =>
      have hk : ((k : ℤ) + 1).toNat = k + 1 := by omega
      have hlen : k + 1 + cs.length = k + (c :: cs).length := by
        rw [List.length_cons]; omega
      rw [List.zipIdx_cons, List.map_cons, List.sum_cons, ih, hlen, poleNumerator_cons,
        SimpleFraction.toRatFunc_toRationalFunction, hk, div_add_div _ _ (hpow _) (hpow _),
        div_eq_div_iff (mul_ne_zero (hpow _) (hpow _)) (hpow _), ← hlen]
      simp only [← map_mul, ← map_add]
      congr 1
      ring

/-- The terms of a group add up to one quotient. -/
lemma sum_terms_toRatFunc (g : PolePart) (label : Option String) :
    (g.terms.map fun t => (t.toRationalFunction label).toRatFunc).sum
      = algebraMap ℚ[X] (RatFunc ℚ) g.numerator
        / algebraMap ℚ[X] (RatFunc ℚ) ((X - C g.root) ^ g.order) := by
  rw [terms, List.map_map, numerator, order, ← Nat.zero_add g.coefficients.length]
  exact sum_zipIdx_toRatFunc g.root g.coefficients 0 label

end PolePart

namespace Decomposition

/-- The terms are those of the groups, and the poles of the groups are strictly ascending. -/
structure HasParts (d : Decomposition) (parts : List PolePart) : Prop where
  ascending : (parts.map PolePart.root).Pairwise (· < ·)
  terms_eq : d.terms = parts.flatMap PolePart.terms

lemma HasParts.nodup {d : Decomposition} {parts : List PolePart} (h : d.HasParts parts) :
    (parts.map PolePart.root).Nodup :=
  h.ascending.imp ne_of_lt

/-- The terms are grouped by strictly ascending roots, the powers in a group are `1, …, m` in
this order, and the coefficient of the power `m` is not zero. -/
def IsCanonical (d : Decomposition) : Prop := ∃ parts, d.HasParts parts

end Decomposition

/-! ### All poles -/

namespace PolePart

/-- The root with the highest power. -/
def key (g : PolePart) : ℚ × ℕ := (g.root, g.order)

/-- The common denominator of all groups. -/
noncomputable def commonDenominator (parts : List PolePart) : ℚ[X] :=
  linearProduct (parts.map key)

/-- The numerator of all groups over the common denominator. -/
noncomputable def commonNumerator : List PolePart → ℚ[X]
  | [] => 0
  | g :: gs => g.numerator * commonDenominator gs + (X - C g.root) ^ g.order * commonNumerator gs

lemma commonDenominator_cons (g : PolePart) (gs : List PolePart) :
    commonDenominator (g :: gs) = (X - C g.root) ^ g.order * commonDenominator gs := by
  rw [commonDenominator, List.map_cons, key, linearProduct_cons, commonDenominator]

lemma monic_commonDenominator (parts : List PolePart) : (commonDenominator parts).Monic :=
  monic_linearProduct _

lemma map_fst_key (parts : List PolePart) :
    (parts.map key).map Prod.fst = parts.map root := by
  rw [List.map_map]
  rfl

/-- All groups add up to the quotient of the common numerator and denominator. -/
lemma sum_flatMap_toRatFunc (parts : List PolePart) (label : Option String) :
    ((parts.flatMap terms).map fun t => (t.toRationalFunction label).toRatFunc).sum
      = algebraMap ℚ[X] (RatFunc ℚ) (commonNumerator parts)
        / algebraMap ℚ[X] (RatFunc ℚ) (commonDenominator parts) := by
  induction parts with
  | nil => simp [commonNumerator]
  | cons g gs ih =>
      have hg : algebraMap ℚ[X] (RatFunc ℚ) ((X - C g.root) ^ g.order) ≠ 0 :=
        RatFunc.algebraMap_ne_zero (pow_ne_zero _ (X_sub_C_ne_zero g.root))
      have hgs : algebraMap ℚ[X] (RatFunc ℚ) (commonDenominator gs) ≠ 0 :=
        RatFunc.algebraMap_ne_zero (monic_commonDenominator gs).ne_zero
      rw [List.flatMap_cons, List.map_append, List.sum_append, ih, sum_terms_toRatFunc,
        div_add_div _ _ hg hgs, commonNumerator, commonDenominator_cons]
      simp only [map_add, map_mul]

/-- The sum of all groups is a proper fraction. -/
lemma degree_commonNumerator_lt (parts : List PolePart) :
    (commonNumerator parts).degree < (commonDenominator parts).degree := by
  induction parts with
  | nil => simp [commonNumerator, commonDenominator]
  | cons g gs ih =>
      have hnum : g.numerator.degree < ((X - C g.root) ^ g.order : ℚ[X]).degree := by
        rw [degree_pow, degree_X_sub_C, nsmul_one]
        exact degree_poleNumerator_lt g.root g.coefficients
      rw [commonNumerator, commonDenominator_cons, mul_comm (_ ^ _) (commonNumerator gs)]
      exact lt_of_le_of_lt (degree_add_le _ _) (degree_cross_products_lt hnum ih)

/-- Modulo the power of one pole, the group of that pole is all that is left of the common
numerator: the other groups have this power in their numerators. -/
lemma pow_dvd_commonNumerator_sub {parts : List PolePart} {g : PolePart} (hg : g ∈ parts)
    {q : ℚ[X]} (hq : commonDenominator parts = (X - C g.root) ^ g.order * q) :
    (X - C g.root) ^ g.order ∣ commonNumerator parts - q * g.numerator := by
  have hpow : ((X - C g.root) ^ g.order : ℚ[X]) ≠ 0 := pow_ne_zero _ (X_sub_C_ne_zero g.root)
  induction parts generalizing q with
  | nil => exact absurd hg List.not_mem_nil
  | cons h gs ih =>
      rw [commonDenominator_cons] at hq
      rw [commonNumerator]
      rcases List.mem_cons.mp hg with rfl | hmem
      · -- this pole: all other summands carry its power
        rw [← mul_left_cancel₀ hpow hq]
        exact ⟨commonNumerator gs, by ring⟩
      · -- a later pole: the part in front carries its power, and so does the rest by induction
        obtain ⟨q', hq'⟩ : (X - C g.root) ^ g.order ∣ commonDenominator gs :=
          pow_dvd_linearProduct (List.mem_map.mpr ⟨g, hmem, rfl⟩)
        have hqq' : q = (X - C h.root) ^ h.order * q' := by
          apply mul_left_cancel₀ hpow
          rw [← hq, hq']
          ring
        rw [hqq', mul_assoc, add_sub_assoc, ← mul_sub, hq']
        exact dvd_add (dvd_mul_of_dvd_right (dvd_mul_right _ _) _)
          (dvd_mul_of_dvd_right (ih hmem hq') _)

variable {parts : List PolePart}

/-- Distinct poles: the denominator of the other groups does not vanish at a pole. -/
lemma exists_commonDenominator_eq (hn : (parts.map root).Nodup) {g : PolePart} (hg : g ∈ parts) :
    ∃ q, commonDenominator parts = (X - C g.root) ^ g.order * q ∧ q.eval g.root ≠ 0 := by
  rw [← map_fst_key] at hn
  exact exists_linearProduct_eq_pow_mul hn (List.mem_map.mpr ⟨g, hg, rfl⟩)

/-- A proper numerator is the common one when it has the group of every pole modulo the power
of that pole. -/
lemma eq_commonNumerator (hn : (parts.map root).Nodup) {n : ℚ[X]}
    (hdeg : n.degree < (commonDenominator parts).degree)
    (h : ∀ g ∈ parts, ∃ q, commonDenominator parts = (X - C g.root) ^ g.order * q
      ∧ (X - C g.root) ^ g.order ∣ n - q * g.numerator) :
    n = commonNumerator parts := by
  have hdvd : commonDenominator parts ∣ n - commonNumerator parts := by
    rw [← map_fst_key] at hn
    refine linearProduct_dvd hn fun rm hrm => ?_
    obtain ⟨g, hg, rfl⟩ := List.mem_map.mp hrm
    obtain ⟨q, hq, hnum⟩ := h g hg
    have hsub := dvd_sub hnum (pow_dvd_commonNumerator_sub hg hq)
    rwa [sub_sub_sub_cancel_right] at hsub
  refine sub_eq_zero.mp (eq_zero_of_dvd_of_degree_lt hdvd ?_)
  exact lt_of_le_of_lt (degree_sub_le _ _) (max_lt hdeg (degree_commonNumerator_lt parts))

lemma eval_commonNumerator_ne_zero (hn : (parts.map root).Nodup) {g : PolePart}
    (hg : g ∈ parts) : (commonNumerator parts).eval g.root ≠ 0 := by
  obtain ⟨q, hq, hq0⟩ := exists_commonDenominator_eq hn hg
  have hroot := (dvd_pow_self (X - C g.root) g.order_ne_zero).trans
    (pow_dvd_commonNumerator_sub hg hq)
  rw [dvd_iff_isRoot, IsRoot.def, eval_sub, eval_mul, sub_eq_zero] at hroot
  rw [hroot]
  exact mul_ne_zero hq0 g.eval_numerator_ne_zero

/-- The sum of a polynomial and of groups with distinct poles is in lowest terms: its
numerator vanishes at none of the poles. -/
lemma isCoprime_commonNumerator (hn : (parts.map root).Nodup) (p : ℚ[X]) :
    IsCoprime (p * commonDenominator parts + commonNumerator parts) (commonDenominator parts) := by
  rw [add_comm]
  refine IsCoprime.add_mul_right_left (isCoprime_linearProduct fun rm hrm => ?_) p
  obtain ⟨g, hg, rfl⟩ := List.mem_map.mp hrm
  exact eval_commonNumerator_ne_zero hn hg

/-- The poles and the highest powers are the roots of the common denominator with their
multiplicities. -/
lemma mem_map_key_iff (hn : (parts.map root).Nodup) (r : ℚ) (m : ℕ) :
    (r, m) ∈ parts.map key ↔
      (commonDenominator parts).IsRoot r ∧ m = (commonDenominator parts).rootMultiplicity r := by
  rw [← map_fst_key] at hn
  refine mem_iff_isRoot_linearProduct hn (fun rm hrm => ?_) r m
  obtain ⟨g, _, rfl⟩ := List.mem_map.mp hrm
  exact g.order_ne_zero

/-- Every group of one sum is a group of the other. -/
lemma mem_of_common_eq {parts' : List PolePart} (hn : (parts.map root).Nodup)
    (hn' : (parts'.map root).Nodup) (hden : commonDenominator parts = commonDenominator parts')
    (hnum : commonNumerator parts = commonNumerator parts') {g : PolePart} (hg : g ∈ parts) :
    g ∈ parts' := by
  have hkey : g.key ∈ parts'.map key := by
    rw [key, mem_map_key_iff hn', ← hden, ← mem_map_key_iff hn]
    exact List.mem_map.mpr ⟨g, hg, rfl⟩
  obtain ⟨h, hh, hgh⟩ := List.mem_map.mp hkey
  obtain ⟨hroot, horder⟩ := Prod.mk.inj hgh
  obtain ⟨q, hq, hq0⟩ := exists_commonDenominator_eq hn hg
  have hg' := pow_dvd_commonNumerator_sub hg hq
  have hh' := pow_dvd_commonNumerator_sub hh (q := q) (by rw [← hden, hroot, horder, hq])
  rw [hroot, horder, ← hnum] at hh'
  have hcoeff : g.coefficients = h.coefficients :=
    eq_of_pow_dvd_sub (r := g.root) horder.symm hq0 hg' (by rw [numerator, hroot] at hh'; exact hh')
  rwa [PolePart.ext hroot.symm hcoeff]

/-- **The groups of a sum are unique**: they are determined by its proper part. -/
theorem parts_unique {parts' : List PolePart} (h : (parts.map root).Pairwise (· < ·))
    (h' : (parts'.map root).Pairwise (· < ·))
    (hden : commonDenominator parts = commonDenominator parts')
    (hnum : commonNumerator parts = commonNumerator parts') : parts = parts' := by
  have hn := h.imp ne_of_lt
  have hn' := h'.imp ne_of_lt
  rw [List.pairwise_map] at h h'
  refine List.Pairwise.eq_of_mem_iff (r := fun g g' : PolePart => g.root < g'.root) h h' ?_
  exact fun g => ⟨fun hg => mem_of_common_eq hn hn' hden hnum hg,
    fun hg => mem_of_common_eq hn' hn hden.symm hnum.symm hg⟩

end PolePart

end ExactAlgebra
