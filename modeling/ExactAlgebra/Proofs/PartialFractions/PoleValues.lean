import ExactAlgebra.Proofs.PartialFractions.Decompose

/-!
The values of partial fractions, at the poles and elsewhere.

* **Sums of extended values.** `Extended.infinities` counts the infinite summands of a value, up
  to two of them. The count of a sum is the sum of the counts, cut off at two
  (`infinities_add`, `infinities_foldl`).
* **One pole.** At its pole, the group of terms of order `m` counts as `m` infinite summands up to
  two, also when there are zeros among the lower coefficients (`PolePart.infinities_terms`).
* **All poles.** The other groups have numbers as values there, so that the count of the whole sum
  is the multiplicity of the pole, cut off at two (`infinities_eval`).

Main statement: `partialFractions_value_at_pole`.
-/

open Polynomial

namespace ExactAlgebra

/-! ### Sums of extended values -/

namespace Extended

/-- The infinite summands of a value; an undefined value counts as two of them. -/
def infinities : Extended → ℕ
  | finite _ => 0
  | infinite => 1
  | undefined => 2

lemma infinities_le_two (a : Extended) : a.infinities ≤ 2 := by
  cases a <;> simp [infinities]

lemma infinities_eq_zero_iff {a : Extended} : a.infinities = 0 ↔ ∃ v, a = finite v := by
  cases a <;> simp [infinities]

lemma infinities_eq_one_iff {a : Extended} : a.infinities = 1 ↔ a = infinite := by
  cases a <;> simp [infinities]

lemma infinities_eq_two_iff {a : Extended} : a.infinities = 2 ↔ a = undefined := by
  cases a <;> simp [infinities]

lemma infinities_add (a b : Extended) :
    (a + b).infinities = min 2 (a.infinities + b.infinities) := by
  cases a <;> cases b <;> rfl

end Extended

/-- A running sum counts the infinite summands, up to two. -/
lemma infinities_foldl (ts : List SimpleFraction) (x : ℚ) (a : Extended) :
    (ts.foldl (fun value t => value + t.eval x) a).infinities
      = min 2 (a.infinities + (ts.map fun t => (t.eval x).infinities).sum) := by
  induction ts generalizing a with
  | nil =>
      rw [List.foldl_nil, List.map_nil, List.sum_nil, add_zero, min_eq_right a.infinities_le_two]
  | cons t ts ih =>
      rw [List.foldl_cons, ih, Extended.infinities_add, List.map_cons, List.sum_cons]
      omega

/-! ### One pole -/

namespace PolePart

/-- A term at its own pole is infinite, or undefined if its coefficient is zero. -/
lemma infinities_eval_root (r c : ℚ) (k : ℕ) :
    ((SimpleFraction.mk r (k + 1) c).eval r).infinities = if c = 0 then 2 else 1 := by
  have hzero : (r - r) ^ ((k : ℤ) + 1).natAbs = 0 := by
    rw [sub_self]
    exact zero_pow (by omega)
  have hpos : ¬(k : ℤ) + 1 < 0 := by omega
  rw [SimpleFraction.eval, Extended.overPower, if_neg hpos, Extended.quotient, hzero,
    if_neg (not_not.mpr rfl)]
  by_cases hc : c = 0 <;> simp [hc, Extended.infinities]

/-- At its pole, a group counts as many infinite summands as its order, up to two. -/
lemma infinities_terms (g : PolePart) :
    min 2 (g.terms.map fun t => (t.eval g.root).infinities).sum = min 2 g.order := by
  have hterms : (g.terms.map fun t => (t.eval g.root).infinities)
      = g.coefficients.map fun c => if c = 0 then 2 else 1 := by
    conv_rhs => rw [← List.zipIdx_map_fst 0 g.coefficients]
    rw [terms, List.map_map, List.map_map]
    exact List.map_congr_left fun c _ => infinities_eval_root g.root c.1 c.2
  have hle : g.coefficients.length
      ≤ (g.coefficients.map fun c => if c = 0 then 2 else 1).sum := by
    refine (List.length_map _).symm.le.trans (List.length_le_sum_of_one_le _ fun n hn => ?_)
    obtain ⟨c, -, rfl⟩ := List.mem_map.mp hn
    split <;> omega
  -- two terms are enough for an undefined sum
  rw [hterms, order]
  by_cases hone : g.coefficients.length = 1
  · -- the only coefficient is the last one, which is not zero
    obtain ⟨c, hc⟩ := List.length_eq_one_iff.mp hone
    have htop : c ≠ 0 := by simpa [hc] using g.top_ne_zero
    simp [hc, htop]
  · have hpos := g.order_ne_zero
    rw [order] at hpos
    omega

/-- Away from its pole, a group has numbers as values. -/
lemma infinities_terms_of_ne {g : PolePart} {x : ℚ} (hx : x ≠ g.root) :
    (g.terms.map fun t => (t.eval x).infinities).sum = 0 := by
  refine List.sum_eq_zero fun n hn => ?_
  obtain ⟨t, ht, rfl⟩ := List.mem_map.mp hn
  obtain ⟨c, -, rfl⟩ := List.mem_map.mp ht
  rw [Decomposition.eval_simpleFraction hx]
  rfl

/-! ### All poles -/

lemma infinities_flatMap_of_not_mem {parts : List PolePart} {x : ℚ}
    (hx : x ∉ parts.map root) :
    ((parts.flatMap terms).map fun t => (t.eval x).infinities).sum = 0 := by
  induction parts with
  | nil => rfl
  | cons g gs ih =>
      rw [List.map_cons, List.mem_cons, not_or] at hx
      rw [List.flatMap_cons, List.map_append, List.sum_append, infinities_terms_of_ne hx.1,
        ih hx.2]

/-- At a pole, only its own group counts. -/
lemma infinities_flatMap {parts : List PolePart} (hn : (parts.map root).Nodup) {g : PolePart}
    (hg : g ∈ parts) :
    ((parts.flatMap terms).map fun t => (t.eval g.root).infinities).sum
      = (g.terms.map fun t => (t.eval g.root).infinities).sum := by
  obtain ⟨gs, hs, rfl⟩ := List.append_of_mem hg
  rw [List.map_append, List.map_cons, List.nodup_middle, List.nodup_cons, List.mem_append,
    not_or] at hn
  obtain ⟨⟨hgs, hhs⟩, -⟩ := hn
  rw [List.flatMap_append, List.flatMap_cons, List.map_append, List.map_append, List.sum_append,
    List.sum_append, infinities_flatMap_of_not_mem hgs, infinities_flatMap_of_not_mem hhs,
    zero_add, add_zero]

end PolePart

namespace Decomposition

variable {d : Decomposition} {parts : List PolePart}

/-- A canonical sum counts as many infinite summands as the multiplicity of a point in its common
denominator, up to two. -/
lemma infinities_eval (hd : d.HasParts parts) (x : ℚ) :
    (d.eval x).infinities
      = min 2 ((PolePart.commonDenominator parts).rootMultiplicity x) := by
  have hsum : (d.eval x).infinities
      = min 2 ((parts.flatMap PolePart.terms).map fun t => (t.eval x).infinities).sum := by
    rw [eval, infinities_foldl, hd.terms_eq, Extended.infinities, zero_add]
  by_cases hx : x ∈ parts.map PolePart.root
  · obtain ⟨g, hg, rfl⟩ := List.mem_map.mp hx
    have hkey := (PolePart.mem_map_key_iff hd.nodup g.root g.order).mp
      (List.mem_map.mpr ⟨g, hg, rfl⟩)
    rw [hsum, PolePart.infinities_flatMap hd.nodup hg, PolePart.infinities_terms, hkey.2]
  · have hroot : (PolePart.commonDenominator parts).eval x ≠ 0 := by
      rw [← PolePart.map_fst_key] at hx
      exact eval_linearProduct_ne_zero hx
    rw [hsum, PolePart.infinities_flatMap_of_not_mem hx, rootMultiplicity_eq_zero hroot]

end Decomposition

namespace RationalFunction

/-- **Partial fractions have no number as value at a pole.** The value of the partial fractions of
a function is a number exactly where the reduced denominator does not vanish; it is infinite exactly
at the simple roots of this denominator, and undefined exactly at the multiple ones. -/
theorem partialFractions_value_at_pole {r : RationalFunction} {limit : ℤ} {d : Decomposition}
    (h : r.partialFractions limit = .ok d) (x : ℚ) :
    ((∃ v, d.eval x = .finite v) ↔ r.simplify.denominator.eval x ≠ 0)
    ∧ (d.eval x = .infinite ↔
      r.simplify.denominator.eval x = 0
        ∧ r.simplify.denominator.toPoly.rootMultiplicity x = 1)
    ∧ (d.eval x = .undefined ↔
      r.simplify.denominator.eval x = 0
        ∧ 2 ≤ r.simplify.denominator.toPoly.rootMultiplicity x) := by
  obtain ⟨parts, hexp⟩ := exists_isExpansion_of_eq_ok h
  have hcount := Decomposition.infinities_eval hexp.hasParts x
  rw [← hexp.denominator_eq] at hcount
  have hroot : r.simplify.denominator.eval x = 0 ↔
      r.simplify.denominator.toPoly.rootMultiplicity x ≠ 0 := by
    rw [Polynomial.eval_eq, ← Nat.pos_iff_ne_zero,
      rootMultiplicity_pos r.simplify.toPoly_denominator_ne_zero, IsRoot.def]
  rw [← Extended.infinities_eq_zero_iff, ← Extended.infinities_eq_one_iff,
    ← Extended.infinities_eq_two_iff, hcount, Ne, hroot]
  omega

/-- The function `1 / (x + 2) + 1 / (x - 1) + 0 / (x - 1)² + 1 / (x - 1)³`, reduced to one quotient:
there is a number at zero, the simple pole `-2` and the triple pole `1`. -/
theorem partialFractions_value_at_pole_triple :
    let r : RationalFunction :=
      ⟨.ofList [3, 1, -3, 2] none, .ofList [-2, 5, -3, -1, 1] none, by decide +kernel⟩
    let d : Decomposition := ⟨.zero none, [⟨-2, 1, 1⟩, ⟨1, 1, 1⟩, ⟨1, 2, 0⟩, ⟨1, 3, 1⟩]⟩
    r.partialFractions 10 = .ok d
      ∧ d.eval 0 = .finite (-3 / 2) ∧ r.simplify.denominator.eval 0 ≠ 0
      ∧ d.eval (-2) = .infinite ∧ r.simplify.denominator.toPoly.rootMultiplicity (-2) = 1
      ∧ d.eval 1 = .undefined ∧ 2 ≤ r.simplify.denominator.toPoly.rootMultiplicity 1 := by
  intro r d
  have h : r.partialFractions 10 = .ok d := by decide +kernel
  have hnumber : d.eval 0 = .finite (-3 / 2) := by decide +kernel
  have hsimple : d.eval (-2) = .infinite := by decide +kernel
  have htriple : d.eval 1 = .undefined := by decide +kernel
  exact ⟨h, hnumber, (partialFractions_value_at_pole h 0).1.mp ⟨_, hnumber⟩,
    hsimple, ((partialFractions_value_at_pole h (-2)).2.1.mp hsimple).2,
    htriple, ((partialFractions_value_at_pole h 1).2.2.mp htriple).2⟩

end RationalFunction

end ExactAlgebra
