import Mathlib.RingTheory.Int.Basic
import Mathlib.RingTheory.Polynomial.RationalRoot
import ExactAlgebra.Proofs.Integer.Divisors
import ExactAlgebra.Proofs.Outcome
import ExactAlgebra.Proofs.Polynomial.Primitive
import ExactAlgebra.Roots.Rational

/-!
The search for rational roots is sound and complete, and exact about its limits.

* **The ascending set.** `pairwise_ascendingSet`: collected roots come out strictly
  ascending.
* **The searched polynomial.** `searchForm` clears the denominators and divides out the
  largest power of the variable. It has integer coefficients and a nonzero constant term;
  `isRoot_cleared` and `isRoot_withoutLowZeros` relate its roots to those of the polynomial.
* **The candidates.** By the rational root theorem every root of such a polynomial is a
  candidate (`mem_rootCandidates_of_isRoot`).
* **The search.** `SearchWithin` states the limits. Within them the search lists the roots
  (`nonzeroRoots_eq_ok`), beyond them it is refused (`nonzeroRoots_eq_error`).

Main statement: `rationalRoots_complete`.
-/

open Polynomial

namespace ExactAlgebra

/-! ### Ascending sets -/

/-- Inserting keeps an ascending list ascending. -/
lemma pairwise_insertAscending (r : ℚ) {l : List ℚ} (hl : l.Pairwise (· < ·)) :
    (insertAscending r l).Pairwise (· < ·) := by
  induction l with
  | nil => simp [insertAscending]
  | cons s rest ih =>
      obtain ⟨hs, hrest⟩ := List.pairwise_cons.mp hl
      rw [insertAscending]
      split
      · next hrs =>
          refine List.pairwise_cons.mpr ⟨fun x hx => ?_, hl⟩
          rcases List.mem_cons.mp hx with rfl | hx
          · exact hrs
          · exact hrs.trans (hs x hx)
      · next hrs =>
          split
          · exact hl
          · next hne =>
              -- the new element is beyond the first, and so are all others
              refine List.pairwise_cons.mpr ⟨fun x hx => ?_, ih hrest⟩
              rcases mem_insertAscending.mp hx with rfl | hx
              · exact lt_of_le_of_ne (not_lt.mp hrs) (Ne.symm hne)
              · exact hs x hx

lemma pairwise_ascendingSet (l : List ℚ) : (ascendingSet l).Pairwise (· < ·) := by
  induction l with
  | nil => exact List.Pairwise.nil
  | cons r l ih => exact pairwise_insertAscending r ih

namespace Polynomial

/-! ### The searched polynomial -/

/-- The zeros that a list begins with stand for nothing. -/
lemma toPoly_takeWhile_zero (cs : List ℚ) : Coefficients.toPoly (cs.takeWhile (· = 0)) = 0 := by
  induction cs with
  | nil => rfl
  | cons c cs ih =>
      by_cases hc : c = 0
      · simp [hc, ih]
      · simp [hc]

/-- The polynomial is the one without low zeros times a power of the variable. -/
lemma toPoly_withoutLowZeros (p : Polynomial) :
    ∃ k : ℕ, p.toPoly = X ^ k * p.withoutLowZeros.toPoly := by
  refine ⟨(p.ascending.takeWhile (· = 0)).length, ?_⟩
  rw [withoutLowZeros, toPoly_ofList, toPoly]
  conv_lhs => rw [← List.takeWhile_append_dropWhile (p := fun c => decide (c = 0))
    (l := p.ascending), Coefficients.toPoly_append, toPoly_takeWhile_zero, zero_add]

/-- What is left without low zeros has a constant coefficient. -/
lemma coefficient_withoutLowZeros {p : Polynomial} (hp : p.isZero = false) :
    p.withoutLowZeros.coefficient 0 ≠ 0 := by
  rw [coefficient_eq, withoutLowZeros, toPoly_ofList, Coefficients.coeff_toPoly]
  cases h : p.ascending.dropWhile (· = 0) with
  | nil =>
      -- a polynomial whose coefficients are all zero is zero
      obtain ⟨k, hk⟩ := toPoly_withoutLowZeros p
      rw [withoutLowZeros, h, toPoly_ofList, Coefficients.toPoly_nil, mul_zero] at hk
      exact absurd hk (toPoly_ne_zero_iff.mpr hp)
  | cons c cs =>
      have hhead := List.head?_dropWhile_not (fun c : ℚ => decide (c = 0)) p.ascending
      rw [h] at hhead
      simpa using hhead

lemma isIntegral_withoutLowZeros {p : Polynomial} (h : p.isIntegral = true) :
    p.withoutLowZeros.isIntegral = true := by
  rw [isIntegral_iff_lifts, lifts_iff_coeff_lifts] at h ⊢
  obtain ⟨k, hk⟩ := toPoly_withoutLowZeros p
  intro n
  have := h (n + k)
  rwa [hk, coeff_X_pow_mul] at this

/-- Dividing out the power of the variable loses the root zero only. -/
lemma isRoot_withoutLowZeros {p : Polynomial} (hp : p.isZero = false) (r : ℚ) :
    p.toPoly.IsRoot r
      ↔ (p.coefficient 0 = 0 ∧ r = 0) ∨ p.withoutLowZeros.toPoly.IsRoot r := by
  obtain ⟨k, hk⟩ := toPoly_withoutLowZeros p
  have hw := coefficient_withoutLowZeros hp
  rw [coefficient_eq, coeff_zero_eq_eval_zero] at hw
  have h0 : p.coefficient 0 = 0 ↔ k ≠ 0 := by
    rw [coefficient_eq, coeff_zero_eq_eval_zero, hk, eval_mul, eval_pow, eval_X, mul_eq_zero,
      or_iff_left hw]
    exact ⟨fun h hk0 => by rw [hk0, pow_zero] at h; exact one_ne_zero h, fun h => zero_pow h⟩
  rw [h0, IsRoot.def, IsRoot.def, hk, eval_mul, eval_pow, eval_X, mul_eq_zero, pow_eq_zero_iff',
    and_comm]

/-- The polynomial with its denominators cleared. -/
def cleared (p : Polynomial) : Polynomial := if p.isIntegral then p else p.primitive

/-- The polynomial whose constant and leading coefficients the search reads: denominators
are cleared and the largest power of the variable is divided out. -/
def searchForm (p : Polynomial) : Polynomial := p.cleared.withoutLowZeros

/-- Clearing denominators scales by a nonzero factor. -/
lemma toPoly_cleared {p : Polynomial} (hp : p.isZero = false) :
    ∃ k : ℚ, k ≠ 0 ∧ p.cleared.toPoly = C k * p.toPoly := by
  rw [cleared]
  split
  · exact ⟨1, one_ne_zero, by rw [C_1, one_mul]⟩
  · exact toPoly_primitive hp

lemma isZero_cleared {p : Polynomial} (hp : p.isZero = false) : p.cleared.isZero = false := by
  obtain ⟨k, hk, h⟩ := toPoly_cleared hp
  rw [← toPoly_ne_zero_iff, h]
  exact mul_ne_zero (C_ne_zero.mpr hk) (toPoly_ne_zero_iff.mpr hp)

lemma isIntegral_cleared {p : Polynomial} (hp : p.isZero = false) :
    p.cleared.isIntegral = true := by
  rw [cleared]
  split
  · assumption
  · exact isIntegral_primitive hp

lemma isRoot_cleared {p : Polynomial} (hp : p.isZero = false) (r : ℚ) :
    p.cleared.toPoly.IsRoot r ↔ p.toPoly.IsRoot r := by
  obtain ⟨k, hk, h⟩ := toPoly_cleared hp
  rw [h, IsRoot.def, IsRoot.def, eval_mul, eval_C, mul_eq_zero, or_iff_right hk]

lemma isZero_of_coefficient {w : Polynomial} {n : ℕ} (h : w.coefficient n ≠ 0) :
    w.isZero = false := by
  refine toPoly_ne_zero_iff.mp fun h0 => h ?_
  rw [coefficient_eq, h0, coeff_zero]

/-! ### The candidates -/

/-- The candidates are the quotients of the two lists with both signs. -/
lemma mem_rootCandidates {ps qs : List ℕ} {r : ℚ} :
    r ∈ rootCandidates ps qs
      ↔ ∃ p ∈ ps, ∃ q ∈ qs, r = (p : ℚ) / q ∨ r = -((p : ℚ) / q) := by
  simp [rootCandidates, List.mem_flatMap]

/-- A quotient of integers is a quotient of their absolute values or its negative. -/
lemma div_eq_natAbs_div (n d : ℤ) :
    (n : ℚ) / d = (n.natAbs : ℚ) / d.natAbs ∨ (n : ℚ) / d = -((n.natAbs : ℚ) / d.natAbs) := by
  rcases Int.natAbs_eq n with hn | hn <;> rcases Int.natAbs_eq d with hd | hd <;>
    rw [hn, hd] <;> simp [neg_div, div_neg]

/-- **The rational root theorem**: a root of a polynomial with integer coefficients and a
nonzero constant term is a candidate. -/
lemma mem_rootCandidates_of_isRoot {w : Polynomial} (hw : w.isIntegral = true)
    (h0 : w.coefficient 0 ≠ 0) {r : ℚ} (hr : w.toPoly.IsRoot r) :
    r ∈ rootCandidates (Integer.divisorsOf (w.coefficient 0).num.natAbs)
      (Integer.divisorsOf w.leadingCoefficient.num.natAbs) := by
  obtain ⟨f, hf⟩ := (mem_lifts _).mp (isIntegral_iff_lifts.mp hw)
  have hroot : aeval r f = 0 := by
    rw [← eval_map_algebraMap, algebraMap_int_eq, hf]; exact hr
  have hc : w.coefficient 0 = (f.coeff 0 : ℚ) := by
    rw [coefficient_eq, ← hf, coeff_map, eq_intCast]
  have hl : w.leadingCoefficient = (f.leadingCoeff : ℚ) := by
    rw [leadingCoefficient_eq, ← hf,
      leadingCoeff_map_of_injective (RingHom.injective_int _), eq_intCast]
  have hl0 := leadingCoefficient_ne_zero (isZero_of_coefficient h0)
  -- the rational root theorem for the polynomial over `ℤ`
  have hnum := num_dvd_of_is_root hroot
  have hden := den_dvd_of_is_root hroot
  rw [hc, Int.cast_ne_zero] at h0
  rw [hl, Int.cast_ne_zero] at hl0
  rw [hc, hl, Rat.num_intCast, Rat.num_intCast, mem_rootCandidates]
  refine ⟨_, (Integer.mem_divisorsOf (Int.natAbs_ne_zero.mpr h0)).mpr
    (Int.natAbs_dvd_natAbs.mpr hnum), _,
    (Integer.mem_divisorsOf (Int.natAbs_ne_zero.mpr hl0)).mpr (Int.natAbs_dvd_natAbs.mpr hden), ?_⟩
  -- a fraction in lowest terms is that of its absolute values, up to its sign
  have hfrac := IsFractionRing.mk'_num_den' (A := ℤ) r
  rw [algebraMap_int_eq, eq_intCast, eq_intCast] at hfrac
  have habs := div_eq_natAbs_div (IsFractionRing.num ℤ r) (IsFractionRing.den ℤ r)
  rwa [hfrac] at habs

/-! ### The search -/

/-- What the limits of a search demand of the searched polynomial: a constant needs no
search; otherwise the divisors of the constant and of the leading coefficient are within
reach of trial division, and the limit admits all candidates, two for each pair of
divisors. -/
def SearchWithin (w : Polynomial) (limit : ℤ) : Prop :=
  w.degree < 1 ∨
    ((w.coefficient 0).num.natAbs.sqrt : ℤ) ≤ Integer.defaultTrialDivisions ∧
    (w.leadingCoefficient.num.natAbs.sqrt : ℤ) ≤ Integer.defaultTrialDivisions ∧
    2 * ((w.coefficient 0).num.natAbs.divisors.card : ℤ)
      * (w.leadingCoefficient.num.natAbs.divisors.card : ℤ) ≤ limit

instance (w : Polynomial) (limit : ℤ) : Decidable (SearchWithin w limit) :=
  inferInstanceAs (Decidable (_ ∨ _))

lemma primitive_withLabel (p : Polynomial) (label : Option String) :
    (p.withLabel label).primitive = p.primitive.withLabel label := by
  unfold primitive
  split
  · next h => rw [if_pos (show p.isZero = true from h)]
  · next h => rw [if_neg (show ¬p.isZero = true from h)]; rfl

lemma searchForm_withLabel (p : Polynomial) (label : Option String) :
    (p.withLabel label).searchForm = p.searchForm.withLabel label := by
  unfold searchForm cleared
  split
  · next h => rw [if_pos (show p.isIntegral = true from h)]; rfl
  · next h => rw [if_neg (show ¬p.isIntegral = true from h), primitive_withLabel]; rfl

/-- The limits of a search do not depend on the label. -/
lemma searchWithin_congr {p q : Polynomial} (h : p.toPoly = q.toPoly) (limit : ℤ) :
    SearchWithin p.searchForm limit ↔ SearchWithin q.searchForm limit := by
  obtain ⟨label, rfl⟩ := exists_eq_withLabel h
  rw [searchForm_withLabel]
  exact Iff.rfl

/-- Within the limits the search lists the roots. -/
lemma nonzeroRoots_eq_ok {w : Polynomial} {limit : ℤ} (hw : w.isIntegral = true)
    (h0 : w.coefficient 0 ≠ 0) (hl : SearchWithin w limit) :
    ∃ rs, w.nonzeroRoots limit = .ok rs ∧ ∀ r, r ∈ rs ↔ w.toPoly.IsRoot r := by
  have hlead := leadingCoefficient_ne_zero (isZero_of_coefficient h0)
  rw [nonzeroRoots]
  split
  · next hdeg =>
      -- a nonzero constant has no root
      refine ⟨[], rfl, fun r => ?_⟩
      have hconst := eq_C_of_natDegree_eq_zero (degree_lt_one_iff.mp hdeg)
      rw [coefficient_eq] at h0
      rw [hconst, IsRoot.def, eval_C]
      simp [h0]
  · next hdeg =>
      obtain ⟨hp, hq, hcard⟩ := hl.resolve_left hdeg
      have hp0 : (w.coefficient 0).num.natAbs ≠ 0 := by simpa using h0
      have hq0 : w.leadingCoefficient.num.natAbs ≠ 0 := by simpa using hlead
      rw [Integer.divisors_eq_ok (Int.natAbs_ne_zero.mp hp0) hp,
        Integer.divisors_eq_ok (Int.natAbs_ne_zero.mp hq0) hq]
      rw [← Integer.length_divisorsOf hp0, ← Integer.length_divisorsOf hq0] at hcard
      refine ⟨_, if_neg (not_lt.mpr hcard), fun r => ?_⟩
      rw [List.mem_filter, decide_eq_true_iff, eval_eq, ← IsRoot.def, and_iff_right_iff_imp]
      exact mem_rootCandidates_of_isRoot hw h0

/-- Beyond the limits the search is refused. -/
lemma nonzeroRoots_eq_error {w : Polynomial} {limit : ℤ} (h0 : w.coefficient 0 ≠ 0)
    (hl : ¬SearchWithin w limit) :
    ∃ e, w.nonzeroRoots limit = .error e ∧ e.kind = .limitExceeded := by
  have hlead := leadingCoefficient_ne_zero (isZero_of_coefficient h0)
  have hp0 : (w.coefficient 0).num.natAbs ≠ 0 := by simpa using h0
  have hq0 : w.leadingCoefficient.num.natAbs ≠ 0 := by simpa using hlead
  simp only [SearchWithin, not_or, not_and, not_le] at hl
  obtain ⟨hdeg, hl⟩ := hl
  rw [nonzeroRoots, if_neg hdeg]
  by_cases hp : ((w.coefficient 0).num.natAbs.sqrt : ℤ) ≤ Integer.defaultTrialDivisions
  · rw [Integer.divisors_eq_ok (Int.natAbs_ne_zero.mp hp0) hp]
    -- either the second listing or the count of the candidates passes its limit
    by_cases hq : (w.leadingCoefficient.num.natAbs.sqrt : ℤ) ≤ Integer.defaultTrialDivisions
    · rw [Integer.divisors_eq_ok (Int.natAbs_ne_zero.mp hq0) hq]
      have hcard := hl hp hq
      rw [← Integer.length_divisorsOf hp0, ← Integer.length_divisorsOf hq0] at hcard
      exact ⟨_, if_pos hcard, rfl⟩
    · rw [Integer.divisors_eq_error (Int.natAbs_ne_zero.mp hq0) (not_le.mp hq)]
      exact ⟨_, rfl, rfl⟩
  · rw [Integer.divisors_eq_error (Int.natAbs_ne_zero.mp hp0) (not_le.mp hp)]
    exact ⟨_, rfl, rfl⟩

/-! ### The roots of a polynomial -/

lemma integerForm?_true (p : Polynomial) : p.integerForm? true = .ok p.cleared := by
  rw [integerForm?, cleared]
  split <;> rfl

/-- The search runs on the searched polynomial; zero is a root when the variable was divided
out. -/
lemma rationalRoots_true_eq {p : Polynomial} (hp : p.isZero = false) (limit : ℤ) :
    p.rationalRoots true limit = (p.searchForm.nonzeroRoots limit).map fun roots =>
      ascendingSet (if p.cleared.coefficient 0 = 0 then 0 :: roots else roots) := by
  rw [rationalRoots, if_neg (by simp [hp]), integerForm?_true]
  change (p.searchForm.nonzeroRoots limit).bind _ = _
  cases p.searchForm.nonzeroRoots limit <;> rfl

lemma coefficient_searchForm {p : Polynomial} (hp : p.isZero = false) :
    p.searchForm.coefficient 0 ≠ 0 := coefficient_withoutLowZeros (isZero_cleared hp)

/-- Within the limits the roots are listed, strictly ascending and without a gap. -/
lemma rationalRoots_eq_ok {p : Polynomial} (hp : p.isZero = false) {limit : ℤ}
    (hl : SearchWithin p.searchForm limit) :
    ∃ rs, p.rationalRoots true limit = .ok rs ∧ rs.Pairwise (· < ·)
      ∧ ∀ r, r ∈ rs ↔ p.toPoly.IsRoot r := by
  have hint : p.searchForm.isIntegral = true := isIntegral_withoutLowZeros (isIntegral_cleared hp)
  obtain ⟨rs, hrs, hmem⟩ := nonzeroRoots_eq_ok hint (coefficient_searchForm hp) hl
  rw [rationalRoots_true_eq hp, hrs]
  refine ⟨_, rfl, pairwise_ascendingSet _, fun r => ?_⟩
  rw [mem_ascendingSet, ← isRoot_cleared hp, isRoot_withoutLowZeros (isZero_cleared hp)]
  split
  · next h0 => rw [List.mem_cons, hmem, eq_true h0, true_and, searchForm]
  · next h0 => rw [hmem, eq_false h0, false_and, false_or, searchForm]

/-- Beyond the limits there is no partial list. -/
lemma rationalRoots_eq_error {p : Polynomial} (hp : p.isZero = false) {limit : ℤ}
    (hl : ¬SearchWithin p.searchForm limit) :
    ∃ e, p.rationalRoots true limit = .error e ∧ e.kind = .limitExceeded := by
  obtain ⟨e, he, hkind⟩ := nonzeroRoots_eq_error (coefficient_searchForm hp) hl
  rw [rationalRoots_true_eq hp, he]
  exact ⟨e, rfl, hkind⟩

/-- Where the coefficients are integers there is nothing to clear. -/
lemma rationalRoots_false_of_isIntegral {p : Polynomial} (h : p.isIntegral = true) (limit : ℤ) :
    p.rationalRoots false limit = p.rationalRoots true limit := by
  rw [rationalRoots, rationalRoots, integerForm?, if_pos h, integerForm?, if_pos h]

lemma rationalRoots_false_of_not_isIntegral {p : Polynomial} (hp : p.isZero = false)
    (h : p.isIntegral = false) (limit : ℤ) :
    p.rationalRoots false limit = .error (.fractionalCoefficients p.toText) := by
  rw [rationalRoots, if_neg (by simp [hp]), integerForm?, if_neg (by simp [h])]
  rfl

/-- A search that clears denominators either lists the roots or fails at its limits. -/
lemma rationalRoots_spec {p : Polynomial} (hp : p.isZero = false) (limit : ℤ) :
    (∃ rs, p.rationalRoots true limit = .ok rs ∧ rs.Pairwise (· < ·)
      ∧ ∀ r, r ∈ rs ↔ p.toPoly.IsRoot r)
    ∨ ∃ e, p.rationalRoots true limit = .error e ∧ e.kind = .limitExceeded := by
  by_cases hl : SearchWithin p.searchForm limit
  · exact .inl (rationalRoots_eq_ok hp hl)
  · exact .inr (rationalRoots_eq_error hp hl)

/-- The zero polynomial has every number for a root, and the search refuses it. -/
lemma isZero_of_rationalRoots_eq_ok {p : Polynomial} {clear : Bool} {limit : ℤ} {rs : List ℚ}
    (h : p.rationalRoots clear limit = .ok rs) : p.isZero = false := by
  cases hp : p.isZero with
  | true => rw [rationalRoots, if_pos hp] at h; cases h
  | false => rfl

/-- A list that is returned ascends and has all roots. -/
lemma rationalRoots_spec_of_eq_ok {p : Polynomial} {limit : ℤ} {rs : List ℚ}
    (h : p.rationalRoots true limit = .ok rs) :
    rs.Pairwise (· < ·) ∧ ∀ r, r ∈ rs ↔ p.toPoly.IsRoot r := by
  rcases rationalRoots_spec (isZero_of_rationalRoots_eq_ok h) limit with
    ⟨rs', hrs', hspec⟩ | ⟨e, he, -⟩
  · cases h.symm.trans hrs'
    exact hspec
  · cases h.symm.trans he

/-- The search is refused as meaningless for zero only. -/
lemma failure_rationalRoots_eq_iff {p : Polynomial} {limit : ℤ} :
    failure (p.rationalRoots true limit) = some .invalidArgument ↔ p.isZero = true := by
  cases hp : p.isZero with
  | true =>
      rw [rationalRoots, if_pos hp]
      exact iff_of_true rfl rfl
  | false =>
      obtain ⟨rs, hrs, -⟩ | ⟨e, he, hkind⟩ := rationalRoots_spec hp limit
      · simp [hrs, failure]
      · simp [he, failure, hkind]

/-- **The search for rational roots is complete.** With denominators cleared, a nonzero
polynomial has all its rational roots listed, strictly ascending, whenever the searched
polynomial is within the limits, and is refused at a limit otherwise. Without clearing, it
is refused as not integral exactly when a coefficient is no integer, and nothing else
changes. -/
theorem rationalRoots_complete (p : Polynomial) (hp : p.isZero = false) (limit : ℤ) :
    (SearchWithin p.searchForm limit →
      ∃ rs, p.rationalRoots true limit = .ok rs ∧ rs.Pairwise (· < ·)
        ∧ ∀ r, r ∈ rs ↔ p.eval r = 0)
    ∧ (¬SearchWithin p.searchForm limit →
      ∃ e, p.rationalRoots true limit = .error e ∧ e.kind = .limitExceeded)
    ∧ ((∃ e, p.rationalRoots false limit = .error e ∧ e.kind = .notIntegral)
      ↔ ∃ c ∈ p.coefficients, c.den ≠ 1)
    ∧ ((∀ c ∈ p.coefficients, c.den = 1) →
      p.rationalRoots false limit = p.rationalRoots true limit) := by
  refine ⟨fun hl => ?_, rationalRoots_eq_error hp, ⟨fun ⟨e, he, hkind⟩ => ?_, fun hc => ?_⟩,
    fun hc => rationalRoots_false_of_isIntegral (isIntegral_iff.mpr hc) limit⟩
  · obtain ⟨rs, hrs, hasc, hmem⟩ := rationalRoots_eq_ok hp hl
    exact ⟨rs, hrs, hasc, fun r => by rw [hmem, IsRoot.def, eval_eq]⟩
  · by_contra hc
    push Not at hc
    rw [rationalRoots_false_of_isIntegral (isIntegral_iff.mpr hc)] at he
    rcases rationalRoots_spec hp limit with ⟨rs, hrs, _⟩ | ⟨e', he', hkind'⟩
    · rw [hrs] at he; cases he
    · rw [he', Except.error.injEq] at he
      rw [← he, hkind'] at hkind
      exact absurd hkind (by decide)
  · obtain ⟨c, hc, hden⟩ := hc
    have hint : p.isIntegral = false := by
      rw [← Bool.not_eq_true, isIntegral_iff]
      exact fun h => hden (h c hc)
    exact ⟨_, rationalRoots_false_of_not_isIntegral hp hint limit, rfl⟩

/-- The roots of `x² (x/2 - 1/3) (x² + 1)`, for which eight candidates are tested. -/
theorem rationalRoots_complete_quintic :
    let p := ofList [0, 0, -1/3, 1/2, -1/3, 1/2] none
    p.isZero = false ∧ SearchWithin p.searchForm 8 ∧ ¬SearchWithin p.searchForm 7
      ∧ (∃ rs, p.rationalRoots true 8 = .ok rs ∧ rs.Pairwise (· < ·)
        ∧ ∀ r, r ∈ rs ↔ p.eval r = 0)
      ∧ (∃ e, p.rationalRoots true 7 = .error e ∧ e.kind = .limitExceeded)
      ∧ (∃ e, p.rationalRoots false 8 = .error e ∧ e.kind = .notIntegral) := by
  intro p
  have hp : p.isZero = false := by decide +kernel
  have hin : SearchWithin p.searchForm 8 := by decide +kernel
  have hout : ¬SearchWithin p.searchForm 7 := by decide +kernel
  have hfrac : ∃ c ∈ p.coefficients, c.den ≠ 1 := by decide +kernel
  exact ⟨hp, hin, hout, (rationalRoots_complete p hp 8).1 hin,
    (rationalRoots_complete p hp 7).2.1 hout, (rationalRoots_complete p hp 8).2.2.1.mpr hfrac⟩

end Polynomial

end ExactAlgebra
