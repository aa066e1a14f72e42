import ExactAlgebra.Proofs.PartialFractions.Decompose
import ExactAlgebra.Proofs.Roots.StepLimit

/-!
What a decomposition into partial fractions comes to.

* **Functions with a pole.** The count of the multiplicities decides: beyond its limits the
  decomposition is refused (`failure_of_not_countWithin`), within them it returns exactly when
  the reduced denominator splits (`failure_of_splits`, `failure_of_not_splits`). Together with
  the functions without a pole these are all outcomes (`failure_partialFractions`).
* **Residues.** The function whose derivatives are evaluated at a root has no pole there, and
  its derivatives have none either (`residues?_defined`).
* **Equal functions.** Everything above is read off the canonical form, so equal functions have
  the same outcome (`partialFractions_congr`).

Main statement: `partialFractions_outcome`.
-/

open Polynomial

namespace ExactAlgebra

namespace Polynomial

/-- A monic polynomial splits when it is the product of the factors `x - r` over a list of
rational numbers. -/
lemma splits_iff_exists_ofRoots {p : Polynomial} (hp : p.toPoly.Monic) :
    p.toPoly.Splits ↔ ∃ roots : List ℚ, (p == ofRoots roots none) = true := by
  simp only [beq_iff_toPoly, toPoly_ofRoots]
  constructor
  · intro hs
    refine ⟨p.toPoly.roots.toList, ?_⟩
    rw [← Multiset.prod_coe, ← Multiset.map_coe, Multiset.coe_toList]
    exact hs.eq_prod_roots_of_monic hp
  · rintro ⟨roots, h⟩
    have hsplits := splits_ofRoots 1 roots none
    rwa [toPoly_scale, C_1, one_mul, toPoly_ofRoots, ← h] at hsplits

end Polynomial

namespace RationalFunction

variable {r s : RationalFunction} {limit : ℤ}

lemma failure_of_degree_lt_one (limit : ℤ) (h : r.simplify.denominator.degree < 1) :
    failure (r.partialFractions limit) = none :=
  failure_eq_none_iff.mpr ⟨_, partialFractions_of_degree_lt_one limit h⟩

/-! ### Functions with a pole -/

/-- Beyond the limits of the count a decomposition is refused. -/
lemma failure_of_not_countWithin (hpole : ¬r.simplify.denominator.degree < 1)
    (h : ¬r.simplify.denominator.CountWithin limit) :
    failure (r.partialFractions limit) = some .limitExceeded := by
  have hcount := Polynomial.failure_rootMultiplicities r.simplify.denominator_ne_zero h
  obtain ⟨e, he, hkind⟩ := failure_eq_some_iff.mp hcount
  exact failure_eq_some_iff.mpr ⟨e, partialFractions_of_count_refused hpole he, hkind⟩

/-- Within the limits a denominator that is a product of linear factors is decomposed. -/
lemma failure_of_splits (hpole : ¬r.simplify.denominator.degree < 1)
    (h : r.simplify.denominator.CountWithin limit)
    (hs : r.simplify.denominator.toPoly.Splits) :
    failure (r.partialFractions limit) = none := by
  obtain ⟨f, hcount, hf⟩ :=
    Polynomial.exists_isFactorization r.simplify.denominator_ne_zero h
  obtain ⟨d, -, hd, -⟩ := partialFractions_of_cofactor_constant hpole hcount (hf.splits_iff.mp hs)
  exact failure_eq_none_iff.mpr ⟨d, hd⟩

/-- Within the limits any other denominator is unsupported. -/
lemma failure_of_not_splits (hpole : ¬r.simplify.denominator.degree < 1)
    (h : r.simplify.denominator.CountWithin limit)
    (hs : ¬r.simplify.denominator.toPoly.Splits) :
    failure (r.partialFractions limit) = some .unsupportedDecomposition := by
  obtain ⟨f, hcount, hf⟩ :=
    Polynomial.exists_isFactorization r.simplify.denominator_ne_zero h
  exact failure_eq_some_iff.mpr (partialFractions_of_cofactor_not_constant hpole hcount
    fun hdeg => hs (hf.splits_iff.mpr hdeg))

open Classical in
/-- All outcomes of a decomposition. The reduced denominator and the limit decide, so that nothing
of the numerator is in them. -/
lemma failure_partialFractions (r : RationalFunction) (limit : ℤ) :
    failure (r.partialFractions limit)
      = if r.simplify.denominator.degree < 1 then none
        else if r.simplify.denominator.CountWithin limit then
          if r.simplify.denominator.toPoly.Splits then none else some .unsupportedDecomposition
        else some .limitExceeded := by
  split_ifs with hpole hlimit hs
  · exact failure_of_degree_lt_one limit hpole
  · exact failure_of_splits hpole hlimit hs
  · exact failure_of_not_splits hpole hlimit hs
  · exact failure_of_not_countWithin hpole hlimit

/-! ### Residues -/

/-- Numerator over cofactor and all of its derivatives have a value at the root that was divided
out, so that the residues are defined. -/
lemma residues?_defined (n : Polynomial) {d : Polynomial} (hd : d.isZero = false) (x : ℚ) :
    (∃ g, ofPolynomials? n (d.divideOutTimes x (d.toPoly.rootMultiplicity x)) = .ok g
        ∧ ∀ k, ∃ v, (g.derivative k).eval? x = .ok v)
      ∧ ∃ cs, residues? n d x (d.toPoly.rootMultiplicity x) = .ok cs := by
  obtain ⟨q, hmul, hq⟩ :=
    exists_eq_pow_rootMultiplicity_mul (Polynomial.toPoly_ne_zero_iff.mpr hd) x
  obtain ⟨g, hg, -, hden⟩ := exists_cofactorFunction n hmul hq
  obtain ⟨cs, hcs, -, -⟩ := residues?_spec (n := n) hmul hq
  refine ⟨⟨g, hg, fun k => exists_eval?_eq_ok (eval_denominator_derivative ?_ k)⟩, cs, hcs⟩
  rwa [hden]

/-! ### Equal functions -/

/-- Equal functions are decomposed alike: both into the same sum, or both with the same kind of
failure. -/
lemma partialFractions_congr (h : (r == s) = true) (limit : ℤ) :
    failure (r.partialFractions limit) = failure (s.partialFractions limit)
      ∧ ∀ d e, r.partialFractions limit = .ok d → s.partialFractions limit = .ok e →
        d.quotient.coefficients = e.quotient.coefficients ∧ d.terms = e.terms := by
  -- equal functions have one canonical form, and the run sees nothing else
  obtain ⟨hnum, hden⟩ := r.isReduced_simplify.ext s.isReduced_simplify
    (by rw [toRatFunc_simplify, toRatFunc_simplify, beq_iff_toRatFunc.mp h])
  have hdegree : r.simplify.denominator.degree < 1 ↔ s.simplify.denominator.degree < 1 := by
    rw [Polynomial.degree_lt_one_iff, Polynomial.degree_lt_one_iff, hden]
  have hcount := Polynomial.countWithin_congr hden limit
  constructor
  · classical
    have hsplits := congrArg Polynomial.Splits hden
    rw [failure_partialFractions, failure_partialFractions]
    exact if_congr hdegree rfl (if_congr hcount (if_congr hsplits.to_iff rfl rfl) rfl)
  · intro d e hd he
    obtain ⟨parts, hr⟩ := exists_isExpansion_of_eq_ok hd
    obtain ⟨parts', hs⟩ := exists_isExpansion_of_eq_ok he
    have hr' : s.IsExpansion d parts :=
      ⟨hr.hasParts, hden ▸ hr.denominator_eq, hnum ▸ hr.numerator_eq⟩
    rw [Polynomial.coefficients_eq_iff]
    exact hr'.unique hs

/-! ### The outcome -/

/-- **The outcome of a decomposition** depends on the value of the function and on the limit.
Without a pole the polynomial part is returned, whatever the limit is. With a pole the
decomposition is refused at a limit exactly when the search for the roots of the reduced
denominator passes its own limits, or when the count of their multiplicities makes a synthetic
division and needs more of them than the limit. Otherwise it is unsupported exactly when the
reduced denominator is not a product of factors `x - r`, and returns in the other case. There
is no further failure, since no residue is evaluated at a pole. Equal functions have equal
quotients and the same terms, or the same kind of failure. -/
theorem partialFractions_outcome (r : RationalFunction) (limit : ℤ) :
    let D := r.simplify.denominator
    (D.degree = 0 → ∃ d, r.partialFractions limit = .ok d ∧ d.terms = [])
    ∧ (D.degree ≠ 0 →
      (failure (r.partialFractions limit) = some .limitExceeded ↔
        ¬Polynomial.SearchWithin D.searchForm Polynomial.defaultRootCandidates
          ∨ D.divisionCount ≠ 0 ∧ limit < D.divisionCount)
      ∧ (failure (r.partialFractions limit) ≠ some .limitExceeded →
        (failure (r.partialFractions limit) = some .unsupportedDecomposition ↔
          ¬∃ roots : List ℚ, (D == Polynomial.ofRoots roots none) = true)
        ∧ ((∃ d, r.partialFractions limit = .ok d) ↔
          ∃ roots : List ℚ, (D == Polynomial.ofRoots roots none) = true)))
    ∧ (∀ e, r.partialFractions limit = .error e →
      e.kind = .limitExceeded ∨ e.kind = .unsupportedDecomposition)
    ∧ (∀ (n : Polynomial) (x : ℚ),
      (∃ g, ofPolynomials? n (D.divideOutTimes x (D.toPoly.rootMultiplicity x)) = .ok g
        ∧ ∀ k, ∃ v, (g.derivative k).eval? x = .ok v)
      ∧ ∃ cs, residues? n D x (D.toPoly.rootMultiplicity x) = .ok cs)
    ∧ ∀ s : RationalFunction, (r == s) = true →
      failure (r.partialFractions limit) = failure (s.partialFractions limit)
      ∧ ∀ d e, r.partialFractions limit = .ok d → s.partialFractions limit = .ok e →
        d.quotient.coefficients = e.quotient.coefficients ∧ d.terms = e.terms := by
  intro D
  refine ⟨fun hdeg => ?_, fun hdeg => ?_, fun e he => ?_,
    fun n x => residues?_defined n r.simplify.denominator_ne_zero x,
    fun s h => partialFractions_congr h limit⟩
  · have hpole : r.simplify.denominator.degree < 1 := lt_of_eq_of_lt hdeg one_pos
    exact ⟨_, partialFractions_of_degree_lt_one limit hpole, rfl⟩
  · have hpole : ¬D.degree < 1 := by
      have hnat : D.degree = D.toPoly.natDegree :=
        Polynomial.degree_eq r.simplify.denominator_ne_zero
      omega
    have hwithin : ¬D.CountWithin limit ↔
        ¬Polynomial.SearchWithin D.searchForm Polynomial.defaultRootCandidates
          ∨ D.divisionCount ≠ 0 ∧ limit < D.divisionCount := by
      rw [Polynomial.CountWithin, not_and_or, not_or, not_le]
    -- the three outcomes are told apart by two conditions on the denominator
    rw [← hwithin, ← Polynomial.splits_iff_exists_ofRoots (p := D) r.monic_simplify,
      ← failure_eq_none_iff]
    by_cases hlimit : D.CountWithin limit
    · by_cases hs : D.toPoly.Splits
      · simp [failure_of_splits hpole hlimit hs, hlimit, hs]
      · simp [failure_of_not_splits hpole hlimit hs, hlimit, hs]
    · simp [failure_of_not_countWithin hpole hlimit, hlimit]
  · have hfailure := r.failure_partialFractions limit
    rw [he] at hfailure
    change some e.kind = _ at hfailure
    split_ifs at hfailure
    · exact .inr (Option.some.inj hfailure)
    · exact .inl (Option.some.inj hfailure)

/-- The unreduced function `x (x² + 1) / (x (x - 1)² (x + 2))`, whose reduced denominator takes
four divisions, a function that is equal to it, and the function `(x² - 4) / (x - 2)` without a
pole. -/
theorem partialFractions_outcome_unreduced :
    let r : RationalFunction := ⟨.ofList [0, 1, 0, 1] none, .ofRoots [0, 1, 1, -2] none,
      by decide +kernel⟩
    let s : RationalFunction := ⟨.ofList [2, 0, 2] none,
      (Polynomial.ofRoots [1, 1, -2] (some "t")).scale 2, by decide +kernel⟩
    let t : RationalFunction := ⟨.ofList [-4, 0, 1] none, .ofList [-2, 1] none, by decide +kernel⟩
    let D := r.simplify.denominator
    D.degree ≠ 0 ∧ D.divisionCount = 4 ∧ (r == s) = true
      ∧ failure (r.partialFractions 3) = some .limitExceeded
      ∧ failure (r.partialFractions 4) ≠ some .limitExceeded
      ∧ (∃ d, r.partialFractions 4 = .ok d)
      ∧ failure (r.partialFractions 4) = failure (s.partialFractions 4)
      ∧ t.simplify.denominator.degree = 0
      ∧ ∃ d, t.partialFractions (-1) = .ok d ∧ d.terms = [] := by
  intro r s t D
  have hdeg : D.degree ≠ 0 := by decide +kernel
  have heq : (r == s) = true := by decide +kernel
  have ht : t.simplify.denominator.degree = 0 := by decide +kernel
  have hproduct : (D == Polynomial.ofRoots [1, 1, -2] none) = true := by decide +kernel
  have hsearch : Polynomial.SearchWithin D.searchForm Polynomial.defaultRootCandidates := by
    decide +kernel
  have hcount : D.divisionCount = 4 := by
    have hrun : D.rootMultiplicities 4 = .ok ⟨[(-2, 1), (1, 2)], .one none⟩ := by decide +kernel
    exact Polynomial.divisionCount_eq_of_isFactorization
      (Polynomial.rootMultiplicities_isFactorization hrun)
  obtain ⟨-, hpole, -, -, hcongr⟩ := partialFractions_outcome r 4
  have hlimit : failure (r.partialFractions 4) ≠ some .limitExceeded := by
    intro h
    rcases (hpole hdeg).1.mp h with hbeyond | ⟨-, hmore⟩
    · exact hbeyond hsearch
    · rw [hcount] at hmore
      exact absurd hmore (by decide)
  refine ⟨hdeg, hcount, heq, ?_, hlimit, ((hpole hdeg).2 hlimit).2.mpr ⟨_, hproduct⟩,
    (hcongr s heq).1, ht, (partialFractions_outcome t (-1)).1 ht⟩
  rw [((partialFractions_outcome r 3).2.1 hdeg).1, hcount]
  exact .inr ⟨by decide, by decide⟩

/-- A limit below zero is no limit when no division is made. No division is needed for
`1 / (x² + 1)`, which is more than the limit `-1` of them, and yet the decomposition is not
refused at the limit. -/
theorem partialFractions_outcome_negative_limit :
    let r : RationalFunction := ⟨.one none, .ofList [1, 0, 1] none, by decide +kernel⟩
    let D := r.simplify.denominator
    D.degree ≠ 0 ∧ (-1 : ℤ) < D.divisionCount
      ∧ failure (r.partialFractions (-1)) = some .unsupportedDecomposition
      ∧ ¬(failure (r.partialFractions (-1)) = some .limitExceeded ↔
        ¬Polynomial.SearchWithin D.searchForm Polynomial.defaultRootCandidates
          ∨ (-1 : ℤ) < D.divisionCount) := by
  intro r D
  have hmore : (-1 : ℤ) < D.divisionCount := by omega
  have hfailure : failure (r.partialFractions (-1)) = some .unsupportedDecomposition := by
    decide +kernel
  refine ⟨by decide +kernel, hmore, hfailure, fun h => ?_⟩
  rw [hfailure] at h
  exact absurd (h.mpr (.inr hmore)) (by decide)

end RationalFunction

end ExactAlgebra
