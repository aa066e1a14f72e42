import ExactAlgebra.Proofs.PartialFractions.Parts

/-!
The sum of a polynomial and of simple fractions as one rational function.

* `toRationalFunction` denotes the sum in `ℚ(X)` (`toRatFunc_toRationalFunction`). For groups
  of distinct poles it is in lowest terms without any cancellation, over the product of the
  powers of the poles (`toPoly_toRationalFunction`).
* Away from the roots of the terms, a sum has the value of its terms with their integer powers
  (`eval_eq_finite`), and its rational function that with the negative powers left out
  (`eval?_toRationalFunction`). For the groups of a canonical sum the two agree
  (`eval_eq_eval?`).

Main statement: `recombined_values`.
-/

open Polynomial

namespace ExactAlgebra

namespace Decomposition

variable (d : Decomposition)

/-- The sum of the quotient and the terms, before it is reduced. -/
def total : RationalFunction :=
  d.terms.foldl (fun total t => total + SimpleFraction.toRationalFunction t d.quotient.label)
    (RationalFunction.ofPolynomial d.quotient)

lemma toRationalFunction_eq : d.toRationalFunction = d.total.simplify := rfl

lemma isReduced_toRationalFunction : d.toRationalFunction.IsReduced :=
  d.total.isReduced_simplify

lemma toRatFunc_foldl (ts : List SimpleFraction) (r : RationalFunction) (label : Option String) :
    (ts.foldl (fun total t => total + SimpleFraction.toRationalFunction t label) r).toRatFunc
      = r.toRatFunc + (ts.map fun t => (t.toRationalFunction label).toRatFunc).sum := by
  induction ts generalizing r with
  | nil => simp
  | cons t ts ih =>
      rw [List.foldl_cons, ih, RationalFunction.toRatFunc_add, List.map_cons, List.sum_cons,
        add_assoc]

/-- The rational function of a sum is the sum in `ℚ(X)`. -/
lemma toRatFunc_toRationalFunction :
    d.toRationalFunction.toRatFunc
      = algebraMap ℚ[X] (RatFunc ℚ) d.quotient.toPoly
        + (d.terms.map fun t => (t.toRationalFunction d.quotient.label).toRatFunc).sum := by
  rw [toRationalFunction_eq, RationalFunction.toRatFunc_simplify, total, toRatFunc_foldl,
    RationalFunction.toRatFunc_ofPolynomial]

variable {d} {parts : List PolePart}

/-- The groups of a sum over their common denominator. -/
lemma toRatFunc_eq_common (hd : d.HasParts parts) :
    d.toRationalFunction.toRatFunc
      = algebraMap ℚ[X] (RatFunc ℚ) (d.quotient.toPoly * PolePart.commonDenominator parts
          + PolePart.commonNumerator parts)
        / algebraMap ℚ[X] (RatFunc ℚ) (PolePart.commonDenominator parts) := by
  have hden : algebraMap ℚ[X] (RatFunc ℚ) (PolePart.commonDenominator parts) ≠ 0 :=
    RatFunc.algebraMap_ne_zero (PolePart.monic_commonDenominator parts).ne_zero
  calc d.toRationalFunction.toRatFunc
      = algebraMap ℚ[X] (RatFunc ℚ) d.quotient.toPoly
        + algebraMap ℚ[X] (RatFunc ℚ) (PolePart.commonNumerator parts)
          / algebraMap ℚ[X] (RatFunc ℚ) (PolePart.commonDenominator parts) := by
        rw [toRatFunc_toRationalFunction, hd.terms_eq, PolePart.sum_flatMap_toRatFunc]
    _ = _ := by rw [map_add, map_mul, add_div, mul_div_cancel_right₀ _ hden]

/-- Groups with distinct poles add up without cancellation: the denominator is the product of
the powers of the poles. -/
lemma toPoly_toRationalFunction (hd : d.HasParts parts) :
    d.toRationalFunction.numerator.toPoly
        = d.quotient.toPoly * PolePart.commonDenominator parts + PolePart.commonNumerator parts
      ∧ d.toRationalFunction.denominator.toPoly = PolePart.commonDenominator parts :=
  d.isReduced_toRationalFunction.toPoly_eq (PolePart.isCoprime_commonNumerator hd.nodup _)
    (PolePart.monic_commonDenominator parts) (toRatFunc_eq_common hd)

/-! ### Values -/

/-- Away from its root, a term has a value for every integer power. -/
lemma eval_simpleFraction {t : SimpleFraction} {x : ℚ} (hx : x ≠ t.root) :
    t.eval x = .finite (t.coefficient / (x - t.root) ^ t.power) := by
  have hbase : (x - t.root) ^ t.power.natAbs ≠ 0 := pow_ne_zero _ (sub_ne_zero.mpr hx)
  rw [SimpleFraction.eval, Extended.overPower]
  split
  · next hneg =>
      rw [← neg_neg t.power, ← Int.ofNat_natAbs_of_nonpos hneg.le, zpow_neg, zpow_natCast,
        div_inv_eq_mul, Int.natAbs_neg, Int.natAbs_natCast]
  · next hnat =>
      rw [Extended.quotient, if_pos hbase, ← zpow_natCast, Int.natAbs_of_nonneg (not_lt.mp hnat)]

/-- The rational function of a term has the denominator one if the power is negative. -/
lemma eval?_simpleFraction {t : SimpleFraction} {x : ℚ} (hx : x ≠ t.root)
    (label : Option String) :
    (t.toRationalFunction label).eval? x
      = .ok (t.coefficient / (x - t.root) ^ t.power.toNat) := by
  have hbase : (x - t.root) ^ t.power.toNat ≠ 0 := pow_ne_zero _ (sub_ne_zero.mpr hx)
  rw [RationalFunction.eval?_eq_ok_iff, SimpleFraction.toRationalFunction,
    Polynomial.toPoly_const, Polynomial.toPoly_ofRoots, List.map_replicate, List.prod_replicate,
    eval_pow, eval_sub, eval_X, eval_C, eval_C]
  exact ⟨hbase, div_mul_cancel₀ _ hbase⟩

/-- The running sum of the values of terms. -/
lemma eval_foldl {ts : List SimpleFraction} {x : ℚ} (hts : ∀ t ∈ ts, x ≠ t.root) (u : ℚ) :
    ts.foldl (fun value t => value + t.eval x) (.finite u)
      = .finite (u + (ts.map fun t => t.coefficient / (x - t.root) ^ t.power).sum) := by
  induction ts generalizing u with
  | nil => simp
  | cons t ts ih =>
      obtain ⟨ht, hts⟩ := List.forall_mem_cons.mp hts
      rw [List.foldl_cons, eval_simpleFraction ht, List.map_cons, List.sum_cons, ← add_assoc]
      exact ih hts _

/-- The value of the running sum of rational functions. -/
lemma eval?_foldl {ts : List SimpleFraction} {x : ℚ} (label : Option String)
    (hts : ∀ t ∈ ts, x ≠ t.root) {r : RationalFunction} {u : ℚ} (hr : r.eval? x = .ok u) :
    (ts.foldl (fun total t => total + SimpleFraction.toRationalFunction t label) r).eval? x
      = .ok (u + (ts.map fun t => t.coefficient / (x - t.root) ^ t.power.toNat).sum) := by
  induction ts generalizing r u with
  | nil => simpa using hr
  | cons t ts ih =>
      obtain ⟨ht, hts⟩ := List.forall_mem_cons.mp hts
      rw [List.foldl_cons, List.map_cons, List.sum_cons, ← add_assoc]
      exact ih hts (RationalFunction.eval?_add hr (eval?_simpleFraction ht label))

variable (d) in
/-- Away from all roots, a sum has the value of its terms. -/
lemma eval_eq_finite {x : ℚ} (hx : ∀ t ∈ d.terms, x ≠ t.root) :
    d.eval x = .finite (d.quotient.eval x
      + (d.terms.map fun t => t.coefficient / (x - t.root) ^ t.power).sum) :=
  eval_foldl hx _

variable (d) in
/-- Away from all roots, the rational function of a sum has the value of its terms, those with a
negative power counting as constants. -/
lemma eval?_toRationalFunction {x : ℚ} (hx : ∀ t ∈ d.terms, x ≠ t.root) :
    d.toRationalFunction.eval? x = .ok (d.quotient.eval x
      + (d.terms.map fun t => t.coefficient / (x - t.root) ^ t.power.toNat).sum) :=
  RationalFunction.eval?_simplify
    (eval?_foldl d.quotient.label hx (RationalFunction.eval?_ofPolynomial d.quotient x))

/-- For natural powers both values are the same. -/
lemma sum_zpow_eq_sum_pow {ts : List SimpleFraction} (x : ℚ) (hts : ∀ t ∈ ts, 0 ≤ t.power) :
    (ts.map fun t => t.coefficient / (x - t.root) ^ t.power).sum
      = (ts.map fun t => t.coefficient / (x - t.root) ^ t.power.toNat).sum := by
  refine congrArg List.sum (List.map_congr_left fun t ht => ?_)
  rw [← zpow_natCast, Int.toNat_of_nonneg (hts t ht)]

/-- The terms of the groups have positive powers, and their roots are the poles. -/
lemma HasParts.mem_terms (hd : d.HasParts parts) {t : SimpleFraction} (ht : t ∈ d.terms) :
    0 ≤ t.power ∧ t.root ∈ parts.map PolePart.root := by
  rw [hd.terms_eq, List.mem_flatMap] at ht
  obtain ⟨g, hg, ht⟩ := ht
  obtain ⟨c, _, rfl⟩ := List.mem_map.mp ht
  exact ⟨by dsimp only; omega, List.mem_map.mpr ⟨g, hg, rfl⟩⟩

/-- Away from the poles, a sum has the value of its rational function. -/
lemma eval_eq_eval? (hd : d.HasParts parts) {x : ℚ} (hx : x ∉ parts.map PolePart.root) :
    ∃ v, d.eval x = .finite v ∧ d.toRationalFunction.eval? x = .ok v := by
  have hroot : ∀ t ∈ d.terms, x ≠ t.root := fun t ht h => hx (h ▸ (hd.mem_terms ht).2)
  refine ⟨_, d.eval_eq_finite hroot, ?_⟩
  rw [d.eval?_toRationalFunction hroot, sum_zpow_eq_sum_pow x fun t ht => (hd.mem_terms ht).1]

/-- **The values of a sum and of its rational function.** Away from the roots of its terms, every
sum of a polynomial and simple fractions has a value, in which a term counts as
`coefficient / (x - root) ^ power`, whatever integer the power is. Its rational function has a value
there too, in which a negative power counts as the power zero. So the two values agree if no power
is negative. -/
theorem recombined_values (d : Decomposition) (x : ℚ) (hx : ∀ t ∈ d.terms, x ≠ t.root) :
    ∃ v w, d.eval x = .finite v ∧ d.toRationalFunction.eval? x = .ok w
      ∧ v = d.quotient.eval x
        + (d.terms.map fun t => t.coefficient / (x - t.root) ^ t.power).sum
      ∧ w = d.quotient.eval x
        + (d.terms.map fun t => t.coefficient / (x - t.root) ^ t.power.toNat).sum
      ∧ ((∀ t ∈ d.terms, 0 ≤ t.power) → v = w) := by
  refine ⟨_, _, d.eval_eq_finite hx, d.eval?_toRationalFunction hx, rfl, rfl, fun hpower => ?_⟩
  rw [sum_zpow_eq_sum_pow x hpower]

/-- The sum `x + 5 / (x - 2) ³ + (1/2) / (x - 2) ⁰ + (-3) / (x + 1)` at zero, whose terms are in no
order. -/
theorem recombined_values_unordered :
    let d : Decomposition := ⟨.ofList [0, 1] none, [⟨2, 3, 5⟩, ⟨2, 0, 1 / 2⟩, ⟨-1, 1, -3⟩]⟩
    (∀ t ∈ d.terms, (0 : ℚ) ≠ t.root) ∧ (∀ t ∈ d.terms, 0 ≤ t.power)
      ∧ d.eval 0 = .finite (-25 / 8) ∧ d.toRationalFunction.eval? 0 = .ok (-25 / 8) := by
  intro d
  have hroot : ∀ t ∈ d.terms, (0 : ℚ) ≠ t.root := by decide +kernel
  have hpower : ∀ t ∈ d.terms, 0 ≤ t.power := by decide +kernel
  have hvalue : d.eval 0 = .finite (-25 / 8) := by decide +kernel
  obtain ⟨v, w, hv, hw, -, -, heq⟩ := recombined_values d 0 hroot
  obtain rfl : v = -25 / 8 := Extended.finite.inj (hv.symm.trans hvalue)
  exact ⟨hroot, hpower, hvalue, hw.trans (congrArg _ (heq hpower).symm)⟩

/-- A term with the power `-1` is the polynomial `x` in the one reading and the number one in the
other. -/
theorem recombined_values_negative_power :
    let d : Decomposition := ⟨.zero none, [⟨0, -1, 1⟩]⟩
    (∀ t ∈ d.terms, (2 : ℚ) ≠ t.root)
      ∧ d.eval 2 = .finite 2 ∧ d.toRationalFunction.eval? 2 = .ok 1 := by
  decide +kernel

end Decomposition

end ExactAlgebra
