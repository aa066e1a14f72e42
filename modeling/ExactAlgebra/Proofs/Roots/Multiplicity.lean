import Mathlib.Data.Finset.Sort
import ExactAlgebra.Proofs.Outcome
import ExactAlgebra.Proofs.Roots.LinearProduct
import ExactAlgebra.Proofs.Roots.Rational
import ExactAlgebra.Roots.Multiplicity

/-!
The factorization of a polynomial into its rational linear factors and a cofactor.

* **One root.** `divideOut_spec`: what is left after the repeated division by `x - r` has no
  root at `r`, and the divisions without remainder are the multiplicity.
* **All roots.** `divideOutAll_spec` is the invariant through the list of roots: the present
  rest keeps the multiplicities at the roots that are still to come, since it differs from
  the polynomial by factors that do not vanish there.
* **The factorization.** `IsFactorization` states what a complete factorization is, and
  `rootMultiplicities_isFactorization` that the count returns one. The cofactor is constant
  exactly when the polynomial splits (`IsFactorization.splits_iff`).

Main statement: `rootMultiplicities_complete`.
-/

open Polynomial

namespace ExactAlgebra

namespace Polynomial

/-! ### One root -/

/-- A factor of a nonzero polynomial is not zero. -/
lemma isZero_of_toPoly_eq_mul {p s : Polynomial} {q : ℚ[X]} (hp : p.isZero = false)
    (h : p.toPoly = q * s.toPoly) : s.isZero = false := by
  rw [← toPoly_ne_zero_iff] at hp ⊢
  exact right_ne_zero_of_mul (h ▸ hp)

/-- A division without remainder takes out one linear factor, and what it leaves is not zero. -/
lemma quotient_of_remainder_eq_zero {p : Polynomial} (hp : p.isZero = false) {r : ℚ}
    (h : (p.syntheticDivide r).remainder = 0) :
    p.toPoly = (X - C r) * (p.syntheticDivide r).quotient.toPoly
      ∧ (p.syntheticDivide r).quotient.isZero = false := by
  rw [remainder_syntheticDivide, eval_eq] at h
  have hdiv := toPoly_eq_of_root h
  exact ⟨hdiv, isZero_of_toPoly_eq_mul hp hdiv⟩

/-- A nonzero constant has no root. -/
lemma not_isRoot_of_degree_lt_one {p : Polynomial} (hp : p.isZero = false) (hdeg : p.degree < 1)
    (r : ℚ) : ¬p.toPoly.IsRoot r := by
  have hconst := eq_C_of_natDegree_eq_zero (degree_lt_one_iff.mp hdeg)
  intro hroot
  rw [IsRoot.def, hconst, eval_C] at hroot
  rw [hroot, C_0] at hconst
  exact toPoly_ne_zero_iff.mpr hp hconst

/-- The repeated division by `x - r` takes out the whole power of it. -/
lemma divideOut_spec {limit : ℤ} {r : ℚ} {p : Polynomial} {steps m : ℕ} {state : Deflation}
    (hp : p.isZero = false) (h : divideOut limit r p steps m = .ok state) :
    ∃ k, state.multiplicity = m + k ∧ p.toPoly = (X - C r) ^ k * state.rest.toPoly
      ∧ ¬state.rest.toPoly.IsRoot r := by
  -- along the divisions: `k` counts those that are still to come without remainder
  fun_induction divideOut limit r p steps m with
  | case1 p steps m hdeg =>
      cases h
      exact ⟨0, rfl, by rw [pow_zero, one_mul], not_isRoot_of_degree_lt_one hp hdeg r⟩
  | case2 p steps m hdeg hlimit => cases h
  | case3 p steps m hdeg hlimit division hrem =>
      cases h
      rw [remainder_syntheticDivide, eval_eq] at hrem
      exact ⟨0, rfl, by rw [pow_zero, one_mul], hrem⟩
  | case4 p steps m hdeg hlimit division hrem ih =>
      obtain ⟨hdiv, hq⟩ := quotient_of_remainder_eq_zero hp (not_not.mp hrem)
      obtain ⟨k, hk, hmul, hroot⟩ := ih hq h
      -- the factor of this division goes in front of those that follow
      refine ⟨k + 1, by omega, ?_, hroot⟩
      rw [hdiv, hmul, pow_succ', mul_assoc]

/-- The repeated division fails at its limit only. -/
lemma kind_divideOut {limit : ℤ} {r : ℚ} {p : Polynomial} {steps m : ℕ} {e : Error}
    (h : divideOut limit r p steps m = .error e) : e.kind = .limitExceeded := by
  fun_induction divideOut limit r p steps m with
  | case1 p steps m hdeg => cases h
  | case2 p steps m hdeg hlimit => cases h; rfl
  | case3 p steps m hdeg hlimit division hrem => cases h
  | case4 p steps m hdeg hlimit division hrem ih => exact ih h

/-! ### All roots -/

/-- A run over a list of roots is one over its first root, and one over the others on what that
leaves. -/
lemma exists_of_divideOutAll_cons {limit : ℤ} {r : ℚ} {rs : List ℚ} {p : Polynomial} {steps : ℕ}
    {f : RootFactorization} (h : divideOutAll limit (r :: rs) p steps = .ok f) :
    ∃ state g, divideOut limit r p steps 0 = .ok state
      ∧ divideOutAll limit rs state.rest state.steps = .ok g
      ∧ f = { g with roots := (r, state.multiplicity) :: g.roots } := by
  rw [divideOutAll, bind_eq_ok_iff] at h
  obtain ⟨state, hstate, h⟩ := h
  obtain ⟨g, hg, h⟩ := bind_eq_ok_iff.mp h
  exact ⟨state, g, hstate, hg, (Except.ok.inj h).symm⟩

/-- A list of distinct roots is divided out with the multiplicities that they have in the
polynomial, and none of them is a root of the cofactor. -/
lemma divideOutAll_spec {limit : ℤ} {rs : List ℚ} (hrs : rs.Nodup) {p : Polynomial}
    {steps : ℕ} {f : RootFactorization} (hp : p.isZero = false)
    (h : divideOutAll limit rs p steps = .ok f) :
    f.roots = rs.map (fun r => (r, p.toPoly.rootMultiplicity r))
      ∧ p.toPoly = linearProduct f.roots * f.cofactor.toPoly
      ∧ ∀ r ∈ rs, ¬f.cofactor.toPoly.IsRoot r := by
  -- the invariant is about the rest that each root leaves to those behind it
  induction rs generalizing p steps f with
  | nil =>
      cases h
      exact ⟨rfl, (one_mul _).symm, fun r hr => by cases hr⟩
  | cons r rs ih =>
      obtain ⟨hr, hrs⟩ := List.nodup_cons.mp hrs
      obtain ⟨state, g, hstate, hrest, rfl⟩ := exists_of_divideOutAll_cons h
      obtain ⟨k, hk, hmul, hroot⟩ := divideOut_spec hp hstate
      rw [Nat.zero_add] at hk
      have hrest0 := isZero_of_toPoly_eq_mul hp hmul
      obtain ⟨hroots, hprod, hcof⟩ := ih hrs hrest0 hrest
      -- the whole power of `x - r` is gone, so its exponent was the multiplicity of `r`
      have hmult : p.toPoly.rootMultiplicity r = k := by
        rw [hmul]; exact rootMultiplicity_pow_mul k hroot
      -- the roots that follow keep their multiplicities in the rest
      have hlater : ∀ s ∈ rs,
          state.rest.toPoly.rootMultiplicity s = p.toPoly.rootMultiplicity s := by
        intro s hs
        have hsr : s ≠ r := fun hsr => hr (hsr ▸ hs)
        rw [hmul, rootMultiplicity_pow_mul_of_ne k (toPoly_ne_zero_iff.mpr hrest0) hsr]
      refine ⟨?_, ?_, ?_⟩
      · rw [List.map_cons, hmult, hk, hroots, List.map_congr_left fun s hs => by rw [hlater s hs]]
      · rw [linearProduct_cons, hk, mul_assoc, ← hprod, hmul]
      · intro s hs
        rcases List.mem_cons.mp hs with rfl | hs
        · -- the cofactor divides the rest, which has no root here
          intro h0
          apply hroot
          rw [hprod, IsRoot.def, eval_mul, h0, mul_zero]
        · exact hcof s hs

lemma kind_divideOutAll {limit : ℤ} {rs : List ℚ} {p : Polynomial} {steps : ℕ} {e : Error}
    (h : divideOutAll limit rs p steps = .error e) : e.kind = .limitExceeded := by
  induction rs generalizing p steps with
  | nil => rw [divideOutAll] at h; cases h
  | cons r rs ih =>
      rw [divideOutAll, bind_eq_error_iff] at h
      rcases h with h | ⟨state, _, h⟩
      · exact kind_divideOut h
      · rcases bind_eq_error_iff.mp h with h | ⟨g, _, h⟩
        · exact ih h
        · cases h

end Polynomial

/-! ### The factorization -/

/-- A complete factorization of `p` into its rational linear factors and a cofactor: the
roots are listed in strictly ascending order with their multiplicities, and the cofactor
has none. -/
structure IsFactorization (p : ℚ[X]) (f : RootFactorization) : Prop where
  ascending : (f.roots.map Prod.fst).Pairwise (· < ·)
  mem_iff : ∀ r m, (r, m) ∈ f.roots ↔ p.IsRoot r ∧ m = p.rootMultiplicity r
  eq_mul : p = linearProduct f.roots * f.cofactor.toPoly
  no_root : ∀ r, ¬f.cofactor.toPoly.IsRoot r

namespace IsFactorization

variable {p : ℚ[X]} {f : RootFactorization}

lemma mem_roots_iff (hf : IsFactorization p f) (r : ℚ) :
    r ∈ f.roots.map Prod.fst ↔ p.IsRoot r := by
  rw [List.mem_map]
  constructor
  · rintro ⟨⟨s, m⟩, hs, rfl⟩
    exact ((hf.mem_iff s m).mp hs).1
  · exact fun hr => ⟨(r, _), (hf.mem_iff r _).mpr ⟨hr, rfl⟩, rfl⟩

lemma cofactor_ne_zero (hf : IsFactorization p f) : f.cofactor.toPoly ≠ 0 :=
  fun h => hf.no_root 0 (by rw [h, IsRoot.def, eval_zero])

lemma ne_zero (hf : IsFactorization p f) : p ≠ 0 := by
  rw [hf.eq_mul]
  exact mul_ne_zero (monic_linearProduct _).ne_zero hf.cofactor_ne_zero

lemma one_le_multiplicity (hf : IsFactorization p f) {rm : ℚ × ℕ} (h : rm ∈ f.roots) :
    1 ≤ rm.2 := by
  obtain ⟨hr, hm⟩ := (hf.mem_iff rm.1 rm.2).mp h
  rw [hm]
  exact (rootMultiplicity_pos hf.ne_zero).mpr hr

lemma leadingCoeff_cofactor (hf : IsFactorization p f) :
    f.cofactor.toPoly.leadingCoeff = p.leadingCoeff := by
  rw [hf.eq_mul, leadingCoeff_mul, (monic_linearProduct _).leadingCoeff, one_mul]

/-- The cofactor is constant exactly when the polynomial is a product of linear factors. -/
lemma splits_iff (hf : IsFactorization p f) : p.Splits ↔ f.cofactor.degree < 1 := by
  rw [Polynomial.degree_lt_one_iff]
  constructor
  · intro hs
    have hcof : f.cofactor.toPoly.Splits :=
      hs.of_dvd hf.ne_zero ⟨_, by rw [mul_comm]; exact hf.eq_mul⟩
    by_contra hdeg
    obtain ⟨r, hr⟩ := hcof.exists_eval_eq_zero
      (fun h => hdeg (natDegree_eq_of_degree_eq_some h))
    exact hf.no_root r hr
  · intro hdeg
    rw [hf.eq_mul]
    exact (splits_linearProduct _).mul (Splits.of_natDegree_eq_zero hdeg)

/-- A monic polynomial whose cofactor is constant is the product of its linear factors. -/
lemma eq_linearProduct (hf : IsFactorization p f) (hp : p.Monic) (hdeg : f.cofactor.degree < 1) :
    p = linearProduct f.roots := by
  have hmonic : f.cofactor.toPoly.Monic := by
    rw [Monic, hf.leadingCoeff_cofactor, hp.leadingCoeff]
  have hone := hmonic.natDegree_eq_zero.mp (Polynomial.degree_lt_one_iff.mp hdeg)
  rw [← mul_one (linearProduct f.roots), ← hone]
  exact hf.eq_mul

lemma nodup (hf : IsFactorization p f) : (f.roots.map Prod.fst).Nodup :=
  hf.ascending.imp ne_of_lt

end IsFactorization

namespace Polynomial

/-! ### The count of multiplicities -/

/-- A count that returns has factorized a nonzero polynomial. -/
lemma rootMultiplicities_isFactorization {p : Polynomial} {limit : ℤ} {f : RootFactorization}
    (h : p.rootMultiplicities limit = .ok f) : IsFactorization p.toPoly f := by
  obtain ⟨rs, hrs, hf⟩ := bind_eq_ok_iff.mp h
  have hp := isZero_of_rationalRoots_eq_ok hrs
  obtain ⟨hasc, hmem⟩ := rationalRoots_spec_of_eq_ok hrs
  obtain ⟨hroots, hmul, hcof⟩ := divideOutAll_spec (hasc.imp ne_of_lt) hp hf
  refine ⟨?_, fun r m => ?_, hmul, fun r hr => ?_⟩
  · rw [hroots, List.pairwise_map, List.pairwise_map]
    exact hasc
  · rw [hroots, List.mem_map]
    constructor
    · rintro ⟨s, hs, heq⟩
      obtain ⟨rfl, rfl⟩ := Prod.mk.inj heq
      exact ⟨(hmem s).mp hs, rfl⟩
    · rintro ⟨hr, rfl⟩
      exact ⟨r, (hmem r).mpr hr, rfl⟩
  · -- a root of the cofactor is one of the polynomial, and those are divided out
    have hroot : p.toPoly.IsRoot r := by
      rw [hmul, IsRoot.def, eval_mul, hr, mul_zero]
    exact hcof r ((hmem r).mpr hroot) hr

/-- A count on a nonzero polynomial fails at its limits only. -/
lemma kind_rootMultiplicities {p : Polynomial} (hp : p.isZero = false) {limit : ℤ} {e : Error}
    (h : p.rootMultiplicities limit = .error e) : e.kind = .limitExceeded := by
  rcases bind_eq_error_iff.mp h with h | ⟨rs, _, h⟩
  · rcases rationalRoots_spec hp defaultRootCandidates with ⟨rs, hrs, _⟩ | ⟨e', he', hkind⟩
    · rw [hrs] at h; cases h
    · rw [he', Except.error.injEq] at h
      exact h ▸ hkind
  · exact kind_divideOutAll h

lemma toPoly_scale_ofRoots (c : ℚ) (l : List ℚ) (label : Option String) :
    ((ofRoots l label).scale c).toPoly = C c * ((l : Multiset ℚ).map fun r => X - C r).prod := by
  rw [toPoly_scale, toPoly_ofRoots, Multiset.map_coe, Multiset.prod_coe]

/-- The multiplicities in a product over a list of roots are the numbers of occurrences. -/
lemma rootMultiplicity_ofRoots {c : ℚ} (hc : c ≠ 0) (l : List ℚ) (label : Option String)
    (r : ℚ) : ((ofRoots l label).scale c).toPoly.rootMultiplicity r = l.count r := by
  rw [toPoly_scale_ofRoots, ← count_roots, roots_C_mul _ hc, roots_multiset_prod_X_sub_C,
    Multiset.coe_count]

lemma leadingCoeff_ofRoots (c : ℚ) (l : List ℚ) (label : Option String) :
    ((ofRoots l label).scale c).toPoly.leadingCoeff = c := by
  rw [toPoly_scale_ofRoots, leadingCoeff_mul, leadingCoeff_C,
    (monic_multisetProd_X_sub_C _).leadingCoeff, mul_one]

lemma splits_ofRoots (c : ℚ) (l : List ℚ) (label : Option String) :
    ((ofRoots l label).scale c).toPoly.Splits := by
  rw [toPoly_scale_ofRoots]
  refine (Splits.multisetProd fun g hg => ?_).C_mul c
  obtain ⟨r, _, rfl⟩ := Multiset.mem_map.mp hg
  exact Splits.X_sub_C r

/-- The factorization of a product over a list of roots: the sorted distinct roots with
their numbers of occurrences, and a constant. -/
lemma isFactorization_ofRoots {c : ℚ} (hc : c ≠ 0) {l : List ℚ} {label : Option String}
    {f : RootFactorization} (hf : IsFactorization ((ofRoots l label).scale c).toPoly f) :
    f.roots = (l.toFinset.sort (· ≤ ·)).map (fun r => (r, l.count r))
      ∧ f.cofactor.coefficients = [c] := by
  have hmult := rootMultiplicity_ofRoots hc l label
  have hroot : ∀ r, ((ofRoots l label).scale c).toPoly.IsRoot r
      ↔ r ∈ l.toFinset.sort (· ≤ ·) := by
    intro r
    rw [Finset.mem_sort, List.mem_toFinset, ← List.count_pos_iff, ← hmult,
      rootMultiplicity_pos hf.ne_zero]
  -- both lists ascend and have the same members; all roots are listed, so the cofactor is constant
  refine ⟨?_, ?_⟩
  · refine List.Pairwise.eq_of_mem_iff (r := fun a b : ℚ × ℕ => a.1 < b.1)
      (List.pairwise_map.mp hf.ascending)
      (List.pairwise_map.mpr (Finset.sortedLT_sort _).pairwise) fun rm => ?_
    rw [hf.mem_iff, hmult, hroot, List.mem_map]
    constructor
    · exact fun ⟨hr, hm⟩ => ⟨rm.1, hr, by rw [← hm]⟩
    · rintro ⟨r, hr, rfl⟩
      exact ⟨hr, rfl⟩
  · have hdeg := degree_lt_one_iff.mp (hf.splits_iff.mp (splits_ofRoots c l label))
    have hlead := hf.leadingCoeff_cofactor
    rw [leadingCoeff_ofRoots, leadingCoeff, hdeg] at hlead
    rw [← coefficients_const c none, coefficients_eq_iff, toPoly_const,
      eq_C_of_natDegree_eq_zero hdeg, hlead]

/-- **The factorization into rational linear factors is complete.** Whenever it returns, the
roots are listed in strictly ascending order with positive multiplicities, their linear
factors and the cofactor multiply to the polynomial, and the cofactor has no rational root
and the same leading coefficient. For a multiple of a product over a list of roots it
returns the sorted distinct roots with their numbers of occurrences and a constant, unless
a limit is passed. -/
theorem rootMultiplicities_complete (limit : ℤ) :
    (∀ (p : Polynomial) (f : RootFactorization), p.rootMultiplicities limit = .ok f →
      (f.roots.map Prod.fst).Pairwise (· < ·)
      ∧ (∀ r, r ∈ f.roots.map Prod.fst ↔ p.eval r = 0)
      ∧ (∀ rm ∈ f.roots, 1 ≤ rm.2)
      ∧ (p == f.cofactor * linearFactors f.roots) = true
      ∧ (∀ r, f.cofactor.eval r ≠ 0)
      ∧ f.cofactor.leadingCoefficient = p.leadingCoefficient)
    ∧ ∀ (l : List ℚ) (c : ℚ) (label : Option String), c ≠ 0 →
      (∃ f, ((ofRoots l label).scale c).rootMultiplicities limit = .ok f
        ∧ f.roots = (l.toFinset.sort (· ≤ ·)).map (fun r => (r, l.count r))
        ∧ f.cofactor.coefficients = [c])
      ∨ ∃ e, ((ofRoots l label).scale c).rootMultiplicities limit = .error e
        ∧ e.kind = .limitExceeded := by
  refine ⟨fun p f h => ?_, fun l c label hc => ?_⟩
  · have hf := rootMultiplicities_isFactorization h
    refine ⟨hf.ascending, fun r => ?_, fun rm => hf.one_le_multiplicity, ?_, fun r => ?_, ?_⟩
    · rw [hf.mem_roots_iff, IsRoot.def, eval_eq]
    · rw [beq_iff_toPoly, toPoly_mul, toPoly_linearFactors, mul_comm]
      exact hf.eq_mul
    · rw [eval_eq]
      exact hf.no_root r
    · rw [leadingCoefficient_eq, leadingCoefficient_eq, hf.leadingCoeff_cofactor]
  · have hzero : ((ofRoots l label).scale c).isZero = false :=
      isZero_scale (isZero_ofRoots l label) hc
    cases h : ((ofRoots l label).scale c).rootMultiplicities limit with
    | error e => exact .inr ⟨e, rfl, kind_rootMultiplicities hzero h⟩
    | ok f =>
        obtain ⟨hroots, hcof⟩ :=
          isFactorization_ofRoots hc (rootMultiplicities_isFactorization h)
        exact .inl ⟨f, rfl, hroots, hcof⟩

/-- Five divisions factorize `2 (x - 1/2)² (x + 3) (x² + 1)`, whose cofactor has no rational
root. -/
theorem rootMultiplicities_complete_quintic :
    let p := ofRoots [1/2, -3, 1/2] none * ofList [2, 0, 2] none
    let q := (ofRoots [3, 1/2, 3, -1] none).scale (2/3)
    p.rootMultiplicities 5 = .ok ⟨[(-3, 1), (1/2, 2)], ofList [2, 0, 2] none⟩
      ∧ (p == ofList [2, 0, 2] none * linearFactors [(-3, 1), (1/2, 2)]) = true
      ∧ (2/3 : ℚ) ≠ 0
      ∧ ((∃ f, q.rootMultiplicities 6 = .ok f
          ∧ f.roots = ([3, 1/2, 3, -1].toFinset.sort (· ≤ ·)).map
            (fun r => (r, [3, 1/2, 3, -1].count r))
          ∧ f.cofactor.coefficients = [2/3])
        ∨ ∃ e, q.rootMultiplicities 6 = .error e ∧ e.kind = .limitExceeded) := by
  intro p q
  have h : p.rootMultiplicities 5 = .ok ⟨[(-3, 1), (1/2, 2)], ofList [2, 0, 2] none⟩ := by
    decide +kernel
  have hc : (2/3 : ℚ) ≠ 0 := by decide +kernel
  exact ⟨h, ((rootMultiplicities_complete 5).1 p _ h).2.2.2.1, hc,
    (rootMultiplicities_complete 6).2 [3, 1/2, 3, -1] (2/3) none hc⟩

end Polynomial

end ExactAlgebra
