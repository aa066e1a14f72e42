import Mathlib.Data.List.DropRight
import ExactAlgebra.Proofs.Outcome
import ExactAlgebra.Proofs.Polynomial.Taylor

/-!
Taylor expansions and polynomials converted into each other.

An expansion may end in zeros, or have no coefficient at all; a polynomial shows at least one
coefficient, and no zero at the end unless it is zero.

* **Out and back.** The polynomial of an expansion is its coefficient list composed with
  `x - center`, and rebasing composes with `x + center` (`toPoly_expanded`, `toPoly_rebase`). So a
  polynomial is found again from its expansion (`expanded_rebase`).
* **Back and out.** An expansion is found again from its polynomial up to the zeros at its end,
  since both sides have the same coefficients and the length that the degree gives
  (`coefficients_rebase`). Which zeros these are is `withoutTrailingZeros`, and
  `coefficients_ofList_eq_self_iff` tells when there are none.
* **Expansions without coefficients** are the only ones that have no polynomial
  (`failure_toPolynomial?`).

Main statement: `TaylorExpansion.conversion_lossless`.
-/

open Polynomial

namespace ExactAlgebra

/-! ### Zeros at the end -/

namespace Coefficients

/-- A zero at the end is dropped. -/
lemma trim_concat_zero (cs : List ℚ) : trim (cs ++ [0]) = trim cs := by
  induction cs with
  | nil => rfl
  | cons c cs ih => rw [List.cons_append, trim, ih, trim]

/-- A list that ends in no zero is kept. -/
lemma trim_concat {c : ℚ} (hc : c ≠ 0) (cs : List ℚ) : trim (cs ++ [c]) = cs ++ [c] := by
  refine trim_eq_self ?_
  rw [Trimmed, List.getLast?_concat]
  simpa using hc

/-- What trimming drops are the zeros at the end. -/
lemma trim_eq_rdropWhile (cs : List ℚ) : trim cs = cs.rdropWhile (· = 0) := by
  induction cs using List.reverseRecOn with
  | nil => rfl
  | append_singleton cs c ih =>
      by_cases hc : c = 0
      · rw [List.rdropWhile_concat_pos _ _ _ (by simpa using hc), ← ih, hc, trim_concat_zero]
      · rw [List.rdropWhile_concat_neg _ _ _ (by simpa using hc), trim_concat hc]

end Coefficients

namespace Polynomial

/-- A polynomial stores the trimmed list, and `[0]` in place of the empty one. -/
lemma coefficients_ofList (cs : List ℚ) (label : Option String) :
    (ofList cs label).coefficients
      = if (Coefficients.trim cs).isEmpty then [0] else Coefficients.trim cs := rfl

/-- A list is shown as it is when it does not end in a zero, or has a single member. -/
lemma coefficients_ofList_eq_self_iff {cs : List ℚ} (hcs : cs ≠ []) (label : Option String) :
    (ofList cs label).coefficients = cs ↔ cs.getLast? ≠ some 0 ∨ cs.length = 1 := by
  constructor
  · intro h
    rw [coefficients_ofList] at h
    split at h
    · exact .inr (by rw [← h]; rfl)
    · -- a trimmed list does not end in a zero
      have htrimmed := Coefficients.trim_trimmed cs
      rw [h] at htrimmed
      exact .inl htrimmed
  · rintro (hlast | hone)
    · rw [coefficients_ofList, Coefficients.trim_eq_self hlast, if_neg]
      rwa [List.isEmpty_iff]
    · obtain ⟨c, rfl⟩ := List.length_eq_one_iff.mp hone
      exact coefficients_const c label

lemma length_coefficients (p : Polynomial) :
    p.coefficients.length = p.toPoly.natDegree + 1 := by
  rw [coefficients]
  split
  · next hp => rw [toPoly_eq_zero_iff.mpr hp, natDegree_zero, List.length_singleton]
  · next hp => exact length_ascending (Bool.eq_false_iff.mpr hp)

/-- Expanded about a center, a polynomial shows the coefficients of the shifted polynomial. -/
lemma coefficients_rebase {p q : Polynomial} {a : ℚ} (h : taylor a p.toPoly = q.toPoly) :
    (p.rebase a).coefficients = q.coefficients := by
  refine Coefficients.eq_of_toPoly_eq ?_ ?_
  · rw [length_coefficients_rebase, length_coefficients, length_coefficients, ← h,
      natDegree_taylor]
  · rw [toPoly_rebase, h, toPoly_ofList_coefficients]

end Polynomial

/-! ### The polynomial of an expansion -/

namespace TaylorExpansion

/-- The polynomial in `x` of an expansion in powers of `x - center`. -/
def expanded (t : TaylorExpansion) : Polynomial :=
  (Polynomial.ofList t.coefficients t.label).compose (.linear t.center t.label)

/-- The expansion without the zeros at the end of its coefficients, of which one is kept when all
are zero. -/
def withoutTrailingZeros (t : TaylorExpansion) : TaylorExpansion :=
  match t.coefficients.rdropWhile (· = 0) with
  | [] => { t with coefficients := [0] }
  | c :: cs => { t with coefficients := c :: cs }

variable {t : TaylorExpansion}

/-- Expansions are compared by center and coefficients, and not by label. -/
lemma beq_iff {s : TaylorExpansion} :
    (s == t) = true ↔ s.center = t.center ∧ s.coefficients = t.coefficients := by
  change (s.center == t.center && s.coefficients == t.coefficients) = true ↔ _
  rw [Bool.and_eq_true, beq_iff_eq, beq_iff_eq]

lemma toPolynomial?_eq_ok (h : t.coefficients ≠ []) : t.toPolynomial? = .ok t.expanded := by
  rw [toPolynomial?, shiftedPolynomial?, Polynomial.ofCoefficients?, if_neg (by simpa using h)]
  rfl

/-- An expansion is refused exactly when it has no coefficients. -/
lemma failure_toPolynomial? (t : TaylorExpansion) :
    failure t.toPolynomial? = if t.coefficients = [] then some .invalidArgument else none := by
  split
  · next h =>
      rw [toPolynomial?, shiftedPolynomial?, Polynomial.ofCoefficients?, if_pos (by simpa using h)]
      rfl
  · next h => rw [toPolynomial?_eq_ok h]; rfl

/-- The polynomial of an expansion is that of its coefficients, shifted back. -/
lemma toPoly_expanded (t : TaylorExpansion) :
    t.expanded.toPoly = taylor (-t.center) (Coefficients.toPoly t.coefficients) := by
  rw [expanded, Polynomial.toPoly_compose, Polynomial.toPoly_ofList, Polynomial.toPoly_linear,
    taylor_apply, C_neg, sub_eq_add_neg]

lemma label_expanded (t : TaylorExpansion) : t.expanded.label = t.label :=
  Polynomial.label_compose _ _

lemma eval_expanded (t : TaylorExpansion) (x : ℚ) : t.expanded.eval x = t.eval x := by
  rw [Polynomial.eval_eq, toPoly_expanded, taylor_eval, ← sub_eq_add_neg, ← evalShifted_eq]
  rfl

/-! ### Out and back -/

/-- A polynomial is found again from its expansion about any center. -/
lemma expanded_rebase (p : Polynomial) (a : ℚ) : (p.rebase a).expanded = p := by
  refine Polynomial.ext_toPoly ?_ (label_expanded _)
  calc (p.rebase a).expanded.toPoly
      = taylor (-a) (taylor a p.toPoly) := by rw [toPoly_expanded, Polynomial.toPoly_rebase]; rfl
    _ = p.toPoly := by rw [taylor_taylor, neg_add_cancel, taylor_zero]

/-! ### Back and out -/

lemma withoutTrailingZeros_eq (t : TaylorExpansion) :
    t.withoutTrailingZeros
      = { t with coefficients := (Polynomial.ofList t.coefficients t.label).coefficients } := by
  rw [withoutTrailingZeros, Polynomial.coefficients_ofList, Coefficients.trim_eq_rdropWhile]
  cases t.coefficients.rdropWhile (· = 0) <;> rfl

/-- An expansion is found again from its polynomial, without the zeros at its end. -/
lemma rebase_expanded (t : TaylorExpansion) :
    t.expanded.rebase t.center = t.withoutTrailingZeros := by
  have hshift : taylor t.center t.expanded.toPoly
      = (Polynomial.ofList t.coefficients t.label).toPoly := by
    rw [toPoly_expanded, taylor_taylor, add_neg_cancel, taylor_zero, Polynomial.toPoly_ofList]
  rw [withoutTrailingZeros_eq, ← Polynomial.coefficients_rebase hshift, ← label_expanded]
  rfl

/-- **Conversion between expansions and polynomials loses nothing.** A polynomial is found again
from its expansion about any center. An expansion with a coefficient has a polynomial, with the
same values; expanded about the center of the expansion, this polynomial gives the expansion
without the zeros at its end, which is equal to the expansion exactly when there are none or the
coefficient is a single one. An expansion without coefficients is the only one whose polynomial is
refused, as an invalid argument. -/
theorem conversion_lossless :
    (∀ (p : Polynomial) (a : ℚ), (p.rebase a).toPolynomial? = .ok p)
    ∧ (∀ t : TaylorExpansion, t.coefficients ≠ [] →
      ∃ q, t.toPolynomial? = .ok q
        ∧ (∀ x, q.eval x = t.eval x)
        ∧ q.rebase t.center = t.withoutTrailingZeros
        ∧ ((q.rebase t.center == t) = true ↔
          t.coefficients.getLast? ≠ some 0 ∨ t.coefficients.length = 1))
    ∧ ∀ t : TaylorExpansion,
      failure t.toPolynomial? = some .invalidArgument ↔ t.coefficients = [] := by
  refine ⟨fun p a => ?_, fun t ht => ?_, fun t => ?_⟩
  · have hne : (p.rebase a).coefficients ≠ [] := by
      rw [← List.length_pos_iff, Polynomial.length_coefficients_rebase, List.length_pos_iff]
      exact p.coefficients_ne_nil
    rw [toPolynomial?_eq_ok hne, expanded_rebase]
  · refine ⟨t.expanded, toPolynomial?_eq_ok ht, eval_expanded t, rebase_expanded t, ?_⟩
    rw [rebase_expanded, withoutTrailingZeros_eq, beq_iff, and_iff_right rfl]
    exact Polynomial.coefficients_ofList_eq_self_iff ht t.label
  · rw [failure_toPolynomial?]
    split <;> simp_all

/-- The expansion `3 - 2 (x - 1/2)²` with two zeros at its end, and the expansion of zero with the
three coefficients zero: neither is equal to the expansion that its polynomial gives. -/
theorem conversion_lossless_trailingZeros :
    let t : TaylorExpansion := ⟨1/2, [3, 0, -2, 0, 0], some "t"⟩
    let z : TaylorExpansion := ⟨-1, [0, 0, 0], none⟩
    t.coefficients ≠ [] ∧ z.coefficients ≠ []
      ∧ t.withoutTrailingZeros = ⟨1/2, [3, 0, -2], some "t"⟩
      ∧ z.withoutTrailingZeros = ⟨-1, [0], none⟩
      ∧ (∃ q, t.toPolynomial? = .ok q ∧ (∀ x, q.eval x = t.eval x)
        ∧ q.rebase t.center = t.withoutTrailingZeros ∧ (q.rebase t.center == t) = false)
      ∧ ∃ q, z.toPolynomial? = .ok q ∧ (∀ x, q.eval x = z.eval x)
        ∧ q.rebase z.center = z.withoutTrailingZeros ∧ (q.rebase z.center == z) = false := by
  intro t z
  have ht : t.coefficients ≠ [] := by decide
  have hz : z.coefficients ≠ [] := by decide
  obtain ⟨-, hback, -⟩ := conversion_lossless
  obtain ⟨q, hq, hvalues, hrebase, hequal⟩ := hback t ht
  obtain ⟨w, hw, hvalues', hrebase', hequal'⟩ := hback z hz
  refine ⟨ht, hz, by decide +kernel, by decide +kernel, ⟨q, hq, hvalues, hrebase, ?_⟩,
    w, hw, hvalues', hrebase', ?_⟩
  · rw [← Bool.not_eq_true, hequal]
    decide
  · rw [← Bool.not_eq_true, hequal']
    decide

end TaylorExpansion

end ExactAlgebra
