import ExactAlgebra.Proofs.PartialFractions.Recombination
import ExactAlgebra.Proofs.RationalFunction.Expansion
import ExactAlgebra.Proofs.Roots.Multiplicity

/-!
Partial fractions.

* **One pole.** At a root of multiplicity `m` of the denominator, `residues?` lists the
  coefficients that leave the numerator divisible by the power of the root
  (`residues?_spec`); the last one is not zero when the numerator does not vanish there
  (`termsAt?_spec`).
* **All poles.** `IsExpansion` says that a sum is the partial fractions of a function, and it
  has at most one in canonical form (`IsExpansion.unique`). `partialFractions` returns it,
  unless a limit is passed or the denominator does not split (`partialFractions_cases`).

Main statements: `partialFractions_recombine`, `partialFractions_unique`.
-/

open Polynomial

namespace ExactAlgebra

namespace Polynomial

/-- Repeated synthetic division takes out a power of `x - r`. -/
lemma toPoly_divideOutTimes {r : ℚ} {q : ℚ[X]} {m : ℕ} {p : Polynomial}
    (h : p.toPoly = (X - C r) ^ m * q) : (p.divideOutTimes r m).toPoly = q := by
  induction m generalizing p with
  | zero => rw [divideOutTimes, h, pow_zero, one_mul]
  | succ m ih =>
      have hroot : p.toPoly.IsRoot r := by
        rw [h, ← dvd_iff_isRoot, pow_succ', mul_assoc]
        exact dvd_mul_right _ _
      rw [divideOutTimes]
      apply ih
      apply mul_left_cancel₀ (X_sub_C_ne_zero r)
      rw [← toPoly_eq_of_root hroot, h, pow_succ', mul_assoc]

end Polynomial

namespace RationalFunction

/-! ### One pole -/

lemma toPoly_map_coeff (e : PowerSeries ℚ) (m : ℕ) :
    Coefficients.toPoly ((List.range' 0 m).map fun i => PowerSeries.coeff i e)
      = PowerSeries.trunc m e := by
  ext n
  rw [Coefficients.coeff_toPoly, PowerSeries.coeff_trunc, List.getD_eq_getElem?_getD,
    List.getElem?_map]
  split
  · next h => simp [h]
  · next h => rw [List.getElem?_eq_none (by simpa using h)]; rfl

variable {n d : Polynomial} {r : ℚ} {m : ℕ} {q : ℚ[X]}

/-- Numerator over cofactor is a function without a pole at the root. -/
lemma exists_cofactorFunction (n : Polynomial) (hd : d.toPoly = (X - C r) ^ m * q)
    (hq : q.eval r ≠ 0) :
    ∃ g, ofPolynomials? n (d.divideOutTimes r m) = .ok g ∧ g.numerator = n
      ∧ g.denominator.toPoly = q := by
  have hcof := Polynomial.toPoly_divideOutTimes hd
  have hzero : (d.divideOutTimes r m).isZero = false := by
    rw [← Polynomial.toPoly_ne_zero_iff, hcof]
    exact fun h => hq (by rw [h, eval_zero])
  exact ⟨⟨n, d.divideOutTimes r m, hzero⟩, dif_pos hzero, rfl, hcof⟩

/-- The coefficients at a root: their fractions leave a numerator that is divisible by the
power of the root. -/
lemma residues?_spec (hd : d.toPoly = (X - C r) ^ m * q) (hq : q.eval r ≠ 0) :
    ∃ cs, residues? n d r m = .ok cs ∧ cs.length = m
      ∧ (X - C r) ^ m ∣ n.toPoly - q * poleNumerator r cs := by
  obtain ⟨g, hg, hnum, hden⟩ := exists_cofactorFunction n hd hq
  have hpole : g.denominator.toPoly.eval r ≠ 0 := by rwa [hden]
  have hdvd := pow_dvd_sub_truncation hpole m
  rw [hnum, hden, ← toPoly_map_coeff] at hdvd
  have hcs : residues? n d r m
      = .ok ((List.range' 0 m).map fun i => PowerSeries.coeff i (g.expansion r)).reverse := by
    rw [residues?, hg]
    exact taylorCoefficients?_eq_ok m 0 hpole rfl
  exact ⟨_, hcs, by simp, by rwa [poleNumerator, List.reverse_reverse]⟩

/-- The terms at a root where the numerator does not vanish are one group. -/
lemma termsAt?_spec (hm : m ≠ 0) (hd : d.toPoly = (X - C r) ^ m * q) (hq : q.eval r ≠ 0)
    (hn : n.toPoly.eval r ≠ 0) :
    ∃ g : PolePart, g.key = (r, m) ∧ termsAt? n d r m = .ok g.terms
      ∧ (X - C r) ^ m ∣ n.toPoly - q * g.numerator := by
  obtain ⟨cs, hcs, hlen, hdvd⟩ := residues?_spec (n := n) hd hq
  have htop : cs.getLastD 0 ≠ 0 := by
    intro h0
    have hroot := (dvd_pow_self (X - C r) hm).trans hdvd
    rw [dvd_iff_isRoot, IsRoot.def, eval_sub, eval_mul, eval_poleNumerator, h0, mul_zero,
      sub_zero] at hroot
    exact hn hroot
  refine ⟨⟨r, cs, htop⟩, by rw [PolePart.key, PolePart.order, hlen], ?_, hdvd⟩
  rw [termsAt?, hcs]
  rfl

/-! ### All poles -/

instance : Nonempty PolePart := ⟨⟨0, [1], by decide⟩⟩

/-- The terms at all roots of a denominator that splits, where the numerator vanishes at none
of them, add up to the fraction when it is proper. -/
lemma mapM_termsAt?_spec {roots : List (ℚ × ℕ)} (hnodup : (roots.map Prod.fst).Nodup)
    (hpos : ∀ rm ∈ roots, rm.2 ≠ 0) (hd : d.toPoly = linearProduct roots)
    (hn : ∀ rm ∈ roots, n.toPoly.eval rm.1 ≠ 0) (hdeg : n.toPoly.degree < d.toPoly.degree) :
    ∃ parts : List PolePart, parts.map PolePart.key = roots
      ∧ (roots.mapM fun root => termsAt? n d root.1 root.2) = .ok (parts.map PolePart.terms)
      ∧ n.toPoly = PolePart.commonNumerator parts := by
  -- each root on its own: what is left of the denominator does not vanish there
  have hpart : ∀ rm ∈ roots, ∃ g : PolePart, g.key = rm ∧ termsAt? n d rm.1 rm.2 = .ok g.terms
      ∧ ∃ q, d.toPoly = (X - C g.root) ^ g.order * q
        ∧ (X - C g.root) ^ g.order ∣ n.toPoly - q * g.numerator := by
    intro rm hrm
    obtain ⟨q, hq, hq0⟩ := exists_linearProduct_eq_pow_mul hnodup hrm
    rw [← hd] at hq
    obtain ⟨g, hkey, hterms, hdvd⟩ := termsAt?_spec (hpos rm hrm) hq hq0 (hn rm hrm)
    obtain ⟨hroot, horder⟩ := Prod.mk.inj hkey
    exact ⟨g, hkey, hterms, q, by rw [hroot, horder, hq], by rwa [hroot, horder]⟩
  choose! part hkey hterms hdvd using hpart
  have hkeys : (roots.map part).map PolePart.key = roots := by
    rw [List.map_map]
    exact (List.map_congr_left hkey).trans (List.map_id roots)
  have hden : d.toPoly = PolePart.commonDenominator (roots.map part) := by
    rw [PolePart.commonDenominator, hkeys, hd]
  -- the difference is divisible by the power of every root, and its degree is too small for that
  refine ⟨roots.map part, hkeys, ?_, PolePart.eq_commonNumerator ?_ (hden ▸ hdeg) ?_⟩
  · rw [List.map_map]
    exact mapM_eq_ok_of_forall hterms
  · rwa [← PolePart.map_fst_key, hkeys]
  · intro g hg
    obtain ⟨rm, hrm, rfl⟩ := List.mem_map.mp hg
    rw [← hden]
    exact hdvd rm hrm

/-- The polynomial part and the rest are the quotient and the remainder. -/
lemma splitProper_spec (r : RationalFunction) (label : Option String) :
    (r.splitProper label).1.toPoly * r.denominator.toPoly + (r.splitProper label).2.toPoly
        = r.numerator.toPoly
      ∧ (r.splitProper label).2.toPoly.degree < r.denominator.toPoly.degree := by
  rw [splitProper]
  split
  · next hproper =>
      exact ⟨by simp, isProper_iff_degree.mp hproper⟩
  · exact ⟨Polynomial.toPoly_div_add_mod r.numerator r.denominator_ne_zero,
      Polynomial.degree_toPoly_mod_lt r.numerator r.denominator_ne_zero⟩

/-- The sum `d` is the partial fractions of `r`, in canonical form with the groups `parts`. -/
structure IsExpansion (r : RationalFunction) (d : Decomposition) (parts : List PolePart) :
    Prop where
  hasParts : d.HasParts parts
  denominator_eq : r.simplify.denominator.toPoly = PolePart.commonDenominator parts
  numerator_eq : r.simplify.numerator.toPoly
    = d.quotient.toPoly * PolePart.commonDenominator parts + PolePart.commonNumerator parts

namespace IsExpansion

variable {r : RationalFunction} {d e : Decomposition} {parts parts' : List PolePart}

/-- A function has one expansion, up to the label of the quotient. -/
lemma unique (h : r.IsExpansion d parts) (h' : r.IsExpansion e parts') :
    d.quotient.toPoly = e.quotient.toPoly ∧ d.terms = e.terms := by
  have hden : PolePart.commonDenominator parts = PolePart.commonDenominator parts' := by
    rw [← h.denominator_eq, h'.denominator_eq]
  have hdiv := h.numerator_eq.symm.trans h'.numerator_eq
  rw [hden] at hdiv
  obtain ⟨hquotient, hnum⟩ := Polynomial.divMod_unique hdiv
    (hden ▸ PolePart.degree_commonNumerator_lt parts) (PolePart.degree_commonNumerator_lt parts')
  refine ⟨hquotient, ?_⟩
  rw [h.hasParts.terms_eq, h'.hasParts.terms_eq,
    PolePart.parts_unique h.hasParts.ascending h'.hasParts.ascending hden hnum]

/-- The rational function of the expansion is the canonical form of the function. -/
lemma toRationalFunction_eq (h : r.IsExpansion d parts) :
    d.toRationalFunction.numerator.toPoly = r.simplify.numerator.toPoly
      ∧ d.toRationalFunction.denominator.toPoly = r.simplify.denominator.toPoly := by
  rw [h.numerator_eq, h.denominator_eq]
  exact Decomposition.toPoly_toRationalFunction h.hasParts

/-- The quotient of the expansion is that of numerator and denominator. -/
lemma quotient_eq (h : r.IsExpansion d parts) :
    (r.numerator / r.denominator).toPoly = d.quotient.toPoly := by
  refine toPoly_div_eq (t := PolePart.commonNumerator parts) ?_ ?_
  · rw [h.numerator_eq, h.denominator_eq]
  · rw [h.denominator_eq]
    exact PolePart.degree_commonNumerator_lt parts

/-- The poles of the groups and their highest powers are the roots of the reduced
denominator with their multiplicities. -/
lemma mem_map_key_iff (h : r.IsExpansion d parts) (x : ℚ) (m : ℕ) :
    (x, m) ∈ parts.map PolePart.key ↔
      r.simplify.denominator.eval x = 0
        ∧ m = r.simplify.denominator.toPoly.rootMultiplicity x := by
  rw [PolePart.mem_map_key_iff h.hasParts.nodup, ← h.denominator_eq, Polynomial.eval_eq, IsRoot.def]

/-- Where the reduced denominator does not vanish, the expansion has the value of the
function. -/
lemma eval_eq (h : r.IsExpansion d parts) {x : ℚ} (hx : r.simplify.denominator.eval x ≠ 0) :
    ∃ v, r.simplify.eval? x = .ok v ∧ d.eval x = .finite v := by
  have hpole : x ∉ parts.map PolePart.root := by
    intro hmem
    obtain ⟨g, hg, rfl⟩ := List.mem_map.mp hmem
    exact hx ((h.mem_map_key_iff g.root g.order).mp (List.mem_map.mpr ⟨g, hg, rfl⟩)).1
  obtain ⟨v, hv, heval⟩ := Decomposition.eval_eq_eval? h.hasParts hpole
  obtain ⟨hnum, hden⟩ := h.toRationalFunction_eq
  exact ⟨v, eval?_eq_of_toPoly_eq hnum hden heval, hv⟩

end IsExpansion

/-- A canonical sum is the expansion of its rational function. -/
lemma isExpansion_toRationalFunction {d : Decomposition} {parts : List PolePart}
    (hd : d.HasParts parts) : d.toRationalFunction.IsExpansion d parts := by
  obtain ⟨hnum, hden⟩ := Decomposition.toPoly_toRationalFunction hd
  obtain ⟨hnum', hden'⟩ := d.toRationalFunction.isReduced_simplify.ext
    d.isReduced_toRationalFunction (toRatFunc_simplify _)
  exact ⟨hd, hden'.trans hden, hnum'.trans hnum⟩

/-! ### The decomposition -/

/-- Only a function without a pole leaves no rest: the reduced denominator divides the numerator,
to which it is coprime. -/
lemma degree_lt_one_of_isZero_rest {r : RationalFunction} {label : Option String}
    (h : (r.simplify.splitProper label).2.isZero = true) :
    r.simplify.denominator.degree < 1 := by
  obtain ⟨hdiv, -⟩ := r.simplify.splitProper_spec label
  rw [Polynomial.toPoly_eq_zero_iff.mpr h, add_zero] at hdiv
  have hunit := r.isReduced_simplify.coprime.isUnit_of_dvd' ⟨_, by rw [mul_comm, hdiv]⟩ dvd_rfl
  exact Polynomial.degree_lt_one_iff.mpr (natDegree_eq_zero_of_isUnit hunit)

/-- A function without a pole is its polynomial part. -/
lemma isExpansion_of_degree_lt_one {r : RationalFunction} (label : Option String)
    (h : r.simplify.denominator.degree < 1) :
    r.IsExpansion ⟨(r.simplify.splitProper label).1, []⟩ [] := by
  obtain ⟨hdiv, hdeg⟩ := r.simplify.splitProper_spec label
  have hone : r.simplify.denominator.toPoly = 1 :=
    r.monic_simplify.natDegree_eq_zero.mp (Polynomial.degree_lt_one_iff.mp h)
  have hzero : (r.simplify.splitProper label).2.toPoly = 0 := by
    rw [hone, degree_one] at hdeg
    exact degree_eq_bot.mp (Nat.WithBot.lt_zero_iff.mp hdeg)
  refine ⟨⟨List.Pairwise.nil, rfl⟩, ?_, ?_⟩
  · rw [hone, PolePart.commonDenominator, List.map_nil, linearProduct_nil]
  · rw [← hdiv, hone, hzero, PolePart.commonDenominator, List.map_nil, linearProduct_nil,
      PolePart.commonNumerator]

/-- A factorization of the reduced denominator into linear factors gives the expansion. -/
lemma exists_isExpansion_of_factorization {r : RationalFunction} (label : Option String)
    {f : RootFactorization} (hf : IsFactorization r.simplify.denominator.toPoly f)
    (hdeg : f.cofactor.degree < 1) :
    ∃ parts : List PolePart,
      (f.roots.mapM fun root => termsAt? (r.simplify.splitProper label).2 r.simplify.denominator
          root.1 root.2) = .ok (parts.map PolePart.terms)
        ∧ r.IsExpansion ⟨(r.simplify.splitProper label).1, parts.flatMap PolePart.terms⟩ parts := by
  obtain ⟨hdiv, hproper⟩ := r.simplify.splitProper_spec label
  have hden := hf.eq_linearProduct r.monic_simplify hdeg
  have hpos : ∀ rm ∈ f.roots, rm.2 ≠ 0 := fun rm hrm =>
    (Nat.lt_of_lt_of_le Nat.zero_lt_one (hf.one_le_multiplicity hrm)).ne'
  -- a common root of the rest and the denominator would be one of the numerator
  have hnum : ∀ rm ∈ f.roots, (r.simplify.splitProper label).2.toPoly.eval rm.1 ≠ 0 := by
    intro rm hrm h0
    have hroot : r.simplify.denominator.toPoly.eval rm.1 = 0 := ((hf.mem_iff rm.1 rm.2).mp hrm).1
    have hnumroot : r.simplify.numerator.toPoly.eval rm.1 = 0 := by
      rw [← hdiv, eval_add, eval_mul, hroot, h0, mul_zero, add_zero]
    obtain ⟨u, v, huv⟩ := r.isReduced_simplify.coprime
    have heval := congrArg (fun p : ℚ[X] => p.eval rm.1) huv
    simp [hroot, hnumroot] at heval
  -- the roots exhaust the denominator, which is monic
  obtain ⟨parts, hkeys, hterms, hcommon⟩ := mapM_termsAt?_spec hf.nodup hpos hden hnum hproper
  have hparts : r.simplify.denominator.toPoly = PolePart.commonDenominator parts := by
    rw [PolePart.commonDenominator, hkeys, ← hden]
  refine ⟨parts, hterms, ⟨?_, rfl⟩, hparts, ?_⟩
  · rw [← PolePart.map_fst_key, hkeys]
    exact hf.ascending
  · rw [← hcommon, ← hparts, hdiv]

lemma partialFractions_of_degree_lt_one {r : RationalFunction} (limit : ℤ)
    (h : r.simplify.denominator.degree < 1) :
    r.partialFractions limit = .ok ⟨(r.simplify.splitProper r.quotientLabel).1, []⟩ :=
  if_pos (.inl h)

/-- A function with a pole is decomposed along the factorization of the reduced denominator. -/
lemma partialFractions_eq_bind {r : RationalFunction} (limit : ℤ)
    (h : ¬r.simplify.denominator.degree < 1) :
    r.partialFractions limit = (do
      let factorization ← r.simplify.denominator.rootMultiplicities limit
      if 0 < factorization.cofactor.degree then
        .error (.factorWithoutRoots r.simplify.denominator.toText factorization.cofactor.toText)
      else
        let terms ← factorization.roots.mapM fun root =>
          termsAt? (r.simplify.splitProper r.quotientLabel).2 r.simplify.denominator root.1 root.2
        .ok ⟨(r.simplify.splitProper r.quotientLabel).1, terms.flatten⟩) :=
  if_neg (not_or.mpr ⟨h, fun hrest => h (degree_lt_one_of_isZero_rest hrest)⟩)

lemma partialFractions_of_count_refused {r : RationalFunction} {limit : ℤ} {e : Error}
    (h : ¬r.simplify.denominator.degree < 1)
    (hcount : r.simplify.denominator.rootMultiplicities limit = .error e) :
    r.partialFractions limit = .error e := by
  rw [partialFractions_eq_bind limit h, bind_eq_error_iff]
  exact .inl hcount

/-- A factorization into linear factors leads to the expansion. -/
lemma partialFractions_of_cofactor_constant {r : RationalFunction} {limit : ℤ}
    {f : RootFactorization} (h : ¬r.simplify.denominator.degree < 1)
    (hcount : r.simplify.denominator.rootMultiplicities limit = .ok f)
    (hdeg : f.cofactor.degree < 1) :
    ∃ d parts, r.partialFractions limit = .ok d ∧ r.IsExpansion d parts := by
  have hf := Polynomial.rootMultiplicities_isFactorization hcount
  obtain ⟨parts, hterms, hexp⟩ := exists_isExpansion_of_factorization r.quotientLabel hf hdeg
  refine ⟨_, parts, ?_, hexp⟩
  rw [partialFractions_eq_bind limit h, bind_eq_ok_iff]
  refine ⟨f, hcount, ?_⟩
  rw [if_neg (by omega), List.flatMap_def, bind_eq_ok_iff]
  exact ⟨_, hterms, rfl⟩

/-- A factor without rational roots is refused. -/
lemma partialFractions_of_cofactor_not_constant {r : RationalFunction} {limit : ℤ}
    {f : RootFactorization} (h : ¬r.simplify.denominator.degree < 1)
    (hcount : r.simplify.denominator.rootMultiplicities limit = .ok f)
    (hdeg : ¬f.cofactor.degree < 1) :
    ∃ e, r.partialFractions limit = .error e ∧ e.kind = .unsupportedDecomposition := by
  refine ⟨.factorWithoutRoots r.simplify.denominator.toText f.cofactor.toText, ?_, rfl⟩
  rw [partialFractions_eq_bind limit h, bind_eq_error_iff]
  exact .inr ⟨f, hcount, if_pos (by omega)⟩

/-- A decomposition returns the expansion, or it fails at a limit, or because the reduced
denominator is not a product of rational linear factors. -/
lemma partialFractions_cases (r : RationalFunction) (limit : ℤ) :
    (∃ d parts, r.partialFractions limit = .ok d ∧ r.IsExpansion d parts)
      ∨ (∃ e, r.partialFractions limit = .error e ∧ e.kind = .limitExceeded)
      ∨ ∃ e, r.partialFractions limit = .error e ∧ e.kind = .unsupportedDecomposition
        ∧ ¬r.simplify.denominator.toPoly.Splits := by
  by_cases hpole : r.simplify.denominator.degree < 1
  · exact .inl ⟨_, [], partialFractions_of_degree_lt_one limit hpole,
      isExpansion_of_degree_lt_one r.quotientLabel hpole⟩
  cases hcount : r.simplify.denominator.rootMultiplicities limit with
  | error e =>
      exact .inr (.inl ⟨e, partialFractions_of_count_refused hpole hcount,
        Polynomial.kind_rootMultiplicities r.simplify.denominator_ne_zero hcount⟩)
  | ok f =>
      have hf := Polynomial.rootMultiplicities_isFactorization hcount
      by_cases hdeg : f.cofactor.degree < 1
      · exact .inl (partialFractions_of_cofactor_constant hpole hcount hdeg)
      · obtain ⟨e, he, hkind⟩ := partialFractions_of_cofactor_not_constant hpole hcount hdeg
        exact .inr (.inr ⟨e, he, hkind, fun hsplits => hdeg (hf.splits_iff.mp hsplits)⟩)

lemma exists_isExpansion_of_eq_ok {r : RationalFunction} {limit : ℤ} {d : Decomposition}
    (h : r.partialFractions limit = .ok d) : ∃ parts, r.IsExpansion d parts := by
  rcases r.partialFractions_cases limit with ⟨e, parts, he, hexp⟩ | ⟨e, he, _⟩ | ⟨e, he, _⟩
  · rw [h] at he
    cases he
    exact ⟨parts, hexp⟩
  · rw [h] at he
    cases he
  · rw [h] at he
    cases he

/-! ### The main statements -/

/-- **Partial fractions recombine.** Whatever the function, reduced or not and proper or not:
the sum that `partialFractions` returns adds up to the canonical form, coefficient by
coefficient. Its polynomial part is the quotient of numerator and denominator, and it has the
value of the function wherever the reduced denominator does not vanish, hence wherever the
denominator itself does not. -/
theorem partialFractions_recombine {r : RationalFunction} {limit : ℤ} {d : Decomposition}
    (h : r.partialFractions limit = .ok d) :
    d.toRationalFunction.numerator.coefficients = r.simplify.numerator.coefficients
      ∧ d.toRationalFunction.denominator.coefficients = r.simplify.denominator.coefficients
      ∧ d.quotient.coefficients = (r.numerator / r.denominator).coefficients
      ∧ (∀ x, r.simplify.denominator.eval x ≠ 0 →
          ∃ v, r.simplify.eval? x = .ok v ∧ d.eval x = .finite v)
      ∧ ∀ x, r.denominator.eval x ≠ 0 → ∃ v, r.eval? x = .ok v ∧ d.eval x = .finite v := by
  obtain ⟨parts, hexp⟩ := exists_isExpansion_of_eq_ok h
  obtain ⟨hnum, hden⟩ := hexp.toRationalFunction_eq
  refine ⟨Polynomial.coefficients_eq_iff.mpr hnum, Polynomial.coefficients_eq_iff.mpr hden,
    Polynomial.coefficients_eq_iff.mpr hexp.quotient_eq.symm, fun x hx => hexp.eval_eq hx,
    fun x hx => ?_⟩
  rw [Polynomial.eval_eq] at hx
  obtain ⟨v, hv⟩ := exists_eval?_eq_ok hx
  -- the reduced denominator divides the denominator
  have hx' : r.simplify.denominator.eval x ≠ 0 := by
    rw [Polynomial.eval_eq]
    exact fun h0 => hx (eval_eq_zero_of_dvd_of_eval_eq_zero r.simplify_denominator_dvd h0)
  obtain ⟨w, hw, hd⟩ := hexp.eval_eq hx'
  rw [eval?_simplify hv, Except.ok.injEq] at hw
  exact ⟨v, hv, hw ▸ hd⟩

/-- An improper function that is not reduced: `(x - 2) (x⁴ + 1) / (2 x (x - 1)² (x - 2))`. It
has no value at `2`, where its canonical form has one. -/
theorem partialFractions_recombine_improper :
    let r : RationalFunction := ⟨.ofRoots [2] none * .ofList [1, 0, 0, 0, 1] none,
      (Polynomial.ofRoots [2, 1, 1, 0] none).scale 2, by decide +kernel⟩
    let d : Decomposition :=
      ⟨.ofList [1, 1/2] none, [⟨0, 1, 1/2⟩, ⟨1, 1, 1⟩, ⟨1, 2, 1⟩]⟩
    r.partialFractions 5 = .ok d
      ∧ d.toRationalFunction.numerator.coefficients = r.simplify.numerator.coefficients
      ∧ d.toRationalFunction.denominator.coefficients = r.simplify.denominator.coefficients
      ∧ d.quotient.coefficients = (r.numerator / r.denominator).coefficients
      ∧ r.simplify.denominator.eval 2 ≠ 0
      ∧ (∃ v, r.simplify.eval? 2 = .ok v ∧ d.eval 2 = .finite v)
      ∧ r.denominator.eval 3 ≠ 0
      ∧ ∃ v, r.eval? 3 = .ok v ∧ d.eval 3 = .finite v := by
  intro r d
  have h : r.partialFractions 5 = .ok d := by decide +kernel
  have hx : r.simplify.denominator.eval 2 ≠ 0 := by decide +kernel
  have hy : r.denominator.eval 3 ≠ 0 := by decide +kernel
  obtain ⟨hnum, hden, hquotient, hreduced, hvalue⟩ := partialFractions_recombine h
  exact ⟨h, hnum, hden, hquotient, hx, hreduced 2 hx, hy, hvalue 3 hy⟩

/-- **Partial fractions are unique.** Decomposing the rational function of a canonical sum
returns the quotient and the terms of that sum, unless a limit is passed. Every sum that a
decomposition returns is canonical, and its poles with their highest powers are the rational
roots of the reduced denominator with their multiplicities. -/
theorem partialFractions_unique :
    (∀ (d : Decomposition) (limit : ℤ), d.IsCanonical →
      (∃ e, d.toRationalFunction.partialFractions limit = .ok e
        ∧ e.quotient.coefficients = d.quotient.coefficients ∧ e.terms = d.terms)
      ∨ ∃ e, d.toRationalFunction.partialFractions limit = .error e ∧ e.kind = .limitExceeded)
    ∧ ∀ (r : RationalFunction) (limit : ℤ) (d : Decomposition),
      r.partialFractions limit = .ok d →
      ∃ parts, d.HasParts parts
        ∧ ∀ x m, (x, m) ∈ parts.map PolePart.key ↔
          r.simplify.denominator.eval x = 0
            ∧ m = r.simplify.denominator.toPoly.rootMultiplicity x := by
  refine ⟨fun d limit hd => ?_, fun r limit d h => ?_⟩
  · obtain ⟨parts, hparts⟩ := hd
    have hexp := isExpansion_toRationalFunction hparts
    rcases d.toRationalFunction.partialFractions_cases limit with
      ⟨e, parts', he, hexp'⟩ | hlimit | ⟨_, _, _, hsplits⟩
    · obtain ⟨hquotient, hterms⟩ := hexp'.unique hexp
      exact .inl ⟨e, he, Polynomial.coefficients_eq_iff.mpr hquotient, hterms⟩
    · exact .inr hlimit
    · -- the denominator is a product of linear factors
      rw [hexp.denominator_eq] at hsplits
      exact absurd (splits_linearProduct _) hsplits
  · obtain ⟨parts, hexp⟩ := exists_isExpansion_of_eq_ok h
    exact ⟨parts, hexp.hasParts, hexp.mem_map_key_iff⟩

/-- The sum `x + 0 / (x + 1/2) + 3 / (x + 1/2)² + (1/3) / (x - 2)`, whose term of power one is
zero. -/
theorem partialFractions_unique_zero_term :
    let parts : List PolePart := [⟨-1/2, [0, 3], by decide +kernel⟩, ⟨2, [1/3], by decide +kernel⟩]
    let d : Decomposition := ⟨.ofList [0, 1] none, parts.flatMap PolePart.terms⟩
    d.IsCanonical
      ∧ ((∃ e, d.toRationalFunction.partialFractions 5 = .ok e
          ∧ e.quotient.coefficients = d.quotient.coefficients ∧ e.terms = d.terms)
        ∨ ∃ e, d.toRationalFunction.partialFractions 5 = .error e ∧ e.kind = .limitExceeded)
      ∧ d.toRationalFunction.partialFractions 5 = .ok d
      ∧ ∃ parts', d.HasParts parts'
        ∧ ∀ x m, (x, m) ∈ parts'.map PolePart.key ↔
          d.toRationalFunction.simplify.denominator.eval x = 0
            ∧ m = d.toRationalFunction.simplify.denominator.toPoly.rootMultiplicity x := by
  intro parts d
  have hd : d.IsCanonical := ⟨parts, by decide +kernel, rfl⟩
  have h : d.toRationalFunction.partialFractions 5 = .ok d := by decide +kernel
  exact ⟨hd, partialFractions_unique.1 d 5 hd, h, partialFractions_unique.2 _ 5 d h⟩

end RationalFunction

end ExactAlgebra
