import ExactAlgebra.Proofs.Roots.Multiplicity
import ExactAlgebra.Proofs.Roots.SignChanges

/-!
Descartes' rule of signs.

* **One root.** A factor `x - r` with `r > 0` turns the sign of the trailing coefficient and keeps
  the leading one, so that it changes the parity; it adds a change at least
  (`signChanges_mul_linear`).
* **All roots.** By induction on the list, `k` positive roots add `k` changes and an even number
  (`signChanges_mul_ofRoots`).
* **Bounds.** The positive roots are no more than the changes (`positiveRootCount_le`). The
  negative roots are the positive ones of the reflection (`positiveRootCount_reflect`).
* **Products of linear factors.** There the roots are as many as the degree, which all changes and
  the multiplicity of zero do not exceed, so that neither bound is strict
  (`rootCounts_eq_of_splits`).

Main statement: `rule_of_signs`.
-/

open Polynomial

namespace ExactAlgebra

/-! ### Counted roots -/

lemma mem_stepsOfTwo_self (n : ℕ) : n ∈ stepsOfTwo n := by
  induction n using stepsOfTwo.induct with
  | case1 => exact List.mem_singleton_self 0
  | case2 => exact List.mem_singleton_self 1
  | case3 n _ => exact List.mem_cons_self

/-- The numbers of positive, of negative and of zero members add up to the size. -/
lemma countP_pos_add_countP_neg_add_count_zero (s : Multiset ℚ) :
    s.countP (0 < ·) + s.countP (· < 0) + s.count 0 = s.card := by
  induction s using Multiset.induction_on with
  | empty => rfl
  | cons r s ih =>
      rw [Multiset.countP_cons, Multiset.countP_cons, Multiset.count_cons, Multiset.card_cons]
      rcases lt_trichotomy r 0 with h | rfl | h
      · rw [if_neg h.not_gt, if_pos h, if_neg h.ne']
        omega
      · rw [if_neg (lt_irrefl 0), if_pos rfl]
        omega
      · rw [if_pos h, if_neg h.not_gt, if_neg h.ne]
        omega

namespace Polynomial

variable {p c : Polynomial}

/-- The number of positive roots with their multiplicities. -/
noncomputable def positiveRootCount (p : Polynomial) : ℕ := p.toPoly.roots.countP (0 < ·)

/-- The number of negative roots with their multiplicities. -/
noncomputable def negativeRootCount (p : Polynomial) : ℕ := p.toPoly.roots.countP (· < 0)

/-- The positive roots of the reflection are the negative ones of the polynomial. -/
lemma positiveRootCount_reflect (p : Polynomial) :
    p.reflect.positiveRootCount = p.negativeRootCount := by
  rw [positiveRootCount, negativeRootCount, toPoly_reflect, roots_comp_neg_X, Multiset.countP_map,
    Multiset.countP_eq_card_filter]
  simp only [neg_pos]

/-! ### One root -/

lemma toPoly_mul_linear (p : Polynomial) (r : ℚ) (label : Option String) :
    (p * linear r label).toPoly = (X - C r) * p.toPoly := by
  rw [toPoly_mul, toPoly_linear, mul_comm]

lemma trailingCoeff_X_sub_C {r : ℚ} (hr : r ≠ 0) : (X - C r).trailingCoeff = -r := by
  have hcoeff : (X - C r).coeff 0 = -r := by simp
  rw [trailingCoeff_eq_coeff_zero (by rwa [hcoeff, neg_ne_zero]), hcoeff]

/-- A factor with a positive root changes the parity of the number of changes. -/
lemma even_signChanges_mul_linear_iff (hp : p.isZero = false) {r : ℚ} (hr : 0 < r)
    (label : Option String) :
    Even (p * linear r label).signChanges ↔ ¬Even p.signChanges := by
  have ht := isSign_rationalSign (trailingCoeff_nonzero_iff_nonzero.mpr (toPoly_ne_zero_iff.mpr hp))
  have hl := isSign_rationalSign (leadingCoeff_ne_zero.mpr (toPoly_ne_zero_iff.mpr hp))
  have htrailing : rationalSign (p * linear r label).toPoly.trailingCoeff
      = -rationalSign p.toPoly.trailingCoeff := by
    rw [toPoly_mul_linear, trailingCoeff_mul, trailingCoeff_X_sub_C hr.ne', neg_mul,
      rationalSign_neg, rationalSign_mul, rationalSign_of_pos hr, one_mul]
  have hleading : (p * linear r label).toPoly.leadingCoeff = p.toPoly.leadingCoeff := by
    rw [toPoly_mul_linear, leadingCoeff_mul, leadingCoeff_X_sub_C, one_mul]
  rw [even_signChanges_iff (isZero_mul hp (isZero_linear r label)), even_signChanges_iff hp,
    htrailing, hleading]
  unfold IsSign at ht hl
  omega

/-- A factor with a positive root adds an odd number of changes. -/
lemma signChanges_mul_linear (hp : p.isZero = false) {r : ℚ} (hr : 0 < r)
    (label : Option String) :
    ∃ j, (p * linear r label).signChanges = p.signChanges + 1 + 2 * j := by
  have hle : p.signChanges + 1 ≤ (p * linear r label).signChanges := by
    rw [signChanges_eq_signVariations, signChanges_eq_signVariations, toPoly_mul_linear]
    exact succ_signVariations_le_X_sub_C_mul hr (toPoly_ne_zero_iff.mpr hp)
  have hparity := even_signChanges_mul_linear_iff hp hr label
  rw [Nat.even_iff, Nat.even_iff] at hparity
  exact ⟨((p * linear r label).signChanges - (p.signChanges + 1)) / 2, by omega⟩

/-! ### All roots -/

/-- Factors with `k` positive roots add `k` changes and an even number. -/
lemma signChanges_mul_ofRoots (hc : c.isZero = false) {rs : List ℚ} (hrs : ∀ r ∈ rs, 0 < r)
    (label : Option String) :
    ∃ j, (c * ofRoots rs label).signChanges = c.signChanges + rs.length + 2 * j := by
  induction rs generalizing c with
  | nil =>
      refine ⟨0, signChanges_congr ?_⟩
      rw [toPoly_mul, toPoly_ofRoots, List.map_nil, List.prod_nil, mul_one]
  | cons r rs ih =>
      obtain ⟨hr, hrs⟩ := List.forall_mem_cons.mp hrs
      obtain ⟨i, hi⟩ := signChanges_mul_linear hc hr label
      obtain ⟨j, hj⟩ := ih (isZero_mul hc (isZero_linear r label)) hrs
      have hassoc : (c * ofRoots (r :: rs) label).toPoly
          = (c * linear r label * ofRoots rs label).toPoly := by
        rw [toPoly_mul, toPoly_mul, toPoly_mul_linear, toPoly_ofRoots, toPoly_ofRoots,
          List.map_cons, List.prod_cons]
        ring
      refine ⟨i + j, ?_⟩
      rw [signChanges_congr hassoc, hj, hi, List.length_cons]
      omega

/-! ### Bounds -/

lemma positiveRootCount_le (p : Polynomial) : p.positiveRootCount ≤ p.signChanges := by
  rw [positiveRootCount, signChanges_eq_signVariations]
  exact p.toPoly.roots_countP_pos_le_signVariations

lemma negativeRootCount_le (p : Polynomial) : p.negativeRootCount ≤ p.reflect.signChanges := by
  rw [← positiveRootCount_reflect]
  exact positiveRootCount_le p.reflect

/-- All changes are needed for the roots of a product of linear factors. -/
lemma rootCounts_eq_of_splits (hp : p.isZero = false) (hs : p.toPoly.Splits) :
    p.positiveRootCount = p.signChanges ∧ p.negativeRootCount = p.reflect.signChanges := by
  have hcount : p.positiveRootCount + p.negativeRootCount + p.toPoly.rootMultiplicity 0
      = p.toPoly.natDegree := by
    rw [hs.natDegree_eq_card_roots, ← countP_pos_add_countP_neg_add_count_zero, count_roots,
      positiveRootCount, negativeRootCount]
  have hpos := positiveRootCount_le p
  have hneg := negativeRootCount_le p
  have hall := signChanges_add_reflect_le hp
  omega

/-- **The rule of signs.** Multiplication by linear factors with `k` positive roots raises the
number of sign changes by `k` and an even number. A nonzero polynomial has no more positive roots
than sign changes, and no more negative ones than its reflection has, each counted with its
multiplicity; both counts are attained, and are among the possible ones, by a polynomial that is a
constant times a product of linear factors. -/
theorem rule_of_signs :
    (∀ (c : Polynomial) (rs : List ℚ) (label : Option String), c.isZero = false →
      (∀ r ∈ rs, 0 < r) →
      ∃ j, (c * ofRoots rs label).signChanges = c.signChanges + rs.length + 2 * j)
    ∧ (∀ p : Polynomial, p.isZero = false →
      p.positiveRootCount ≤ p.ruleOfSigns.positiveChanges
        ∧ p.negativeRootCount ≤ p.ruleOfSigns.negativeChanges)
    ∧ ∀ p : Polynomial, p.isZero = false → p.toPoly.Splits →
      (p.positiveRootCount = p.ruleOfSigns.positiveChanges
        ∧ p.negativeRootCount = p.ruleOfSigns.negativeChanges)
      ∧ p.positiveRootCount ∈ p.ruleOfSigns.possiblePositive
        ∧ p.negativeRootCount ∈ p.ruleOfSigns.possibleNegative := by
  refine ⟨fun c rs label hc hrs => signChanges_mul_ofRoots hc hrs label,
    fun p _ => ⟨positiveRootCount_le p, negativeRootCount_le p⟩, fun p hp hs => ?_⟩
  obtain ⟨hpos, hneg⟩ := rootCounts_eq_of_splits hp hs
  refine ⟨⟨hpos, hneg⟩, ?_, ?_⟩
  · rw [hpos]
    exact mem_stepsOfTwo_self p.signChanges
  · rw [hneg]
    exact mem_stepsOfTwo_self p.reflect.signChanges

/-- A polynomial with gaps gets three positive roots; a product with a root zero and a repeated
root has exactly the roots that its changes announce. -/
theorem rule_of_signs_gaps :
    let c : Polynomial := ofList [1, 0, 0, -2/3, 0, 5] none
    let p : Polynomial := (ofRoots [1/2, -3, 0, 1/2, 2] (some "t")).scale (-4)
    c.isZero = false ∧ (∀ r ∈ [(1/2 : ℚ), 3, 3], 0 < r)
      ∧ (∃ j, (c * ofRoots [1/2, 3, 3] none).signChanges = c.signChanges + 3 + 2 * j)
      ∧ c.positiveRootCount ≤ 2 ∧ c.negativeRootCount ≤ 1
      ∧ p.isZero = false ∧ p.toPoly.Splits ∧ p.positiveRootCount = 3 ∧ p.negativeRootCount = 1
      ∧ p.positiveRootCount ∈ [3, 1] ∧ p.negativeRootCount ∈ [1] := by
  intro c p
  have hc : c.isZero = false := by decide +kernel
  have hrs : ∀ r ∈ [(1/2 : ℚ), 3, 3], 0 < r := by decide +kernel
  have hp : p.isZero = false := by decide +kernel
  have hs : p.toPoly.Splits := splits_ofRoots (-4) _ _
  have hcreport : c.ruleOfSigns = ⟨2, 1, [2, 0], [1]⟩ := by decide +kernel
  have hpreport : p.ruleOfSigns = ⟨3, 1, [3, 1], [1]⟩ := by decide +kernel
  obtain ⟨hfactors, hbound, hsplit⟩ := rule_of_signs
  have hcbound := hbound c hc
  have hpcounts := hsplit p hp hs
  rw [hcreport] at hcbound
  rw [hpreport] at hpcounts
  exact ⟨hc, hrs, hfactors c [1/2, 3, 3] none hc hrs, hcbound.1, hcbound.2, hp, hs,
    hpcounts.1.1, hpcounts.1.2, hpcounts.2.1, hpcounts.2.2⟩

end Polynomial

end ExactAlgebra
