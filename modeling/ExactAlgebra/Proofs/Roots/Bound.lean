import Mathlib.Algebra.Order.Field.Basic
import Mathlib.Tactic.GCongr
import Mathlib.Tactic.Linarith
import ExactAlgebra.Proofs.Polynomial.Evaluation
import ExactAlgebra.Proofs.Rational.Sign
import ExactAlgebra.Roots.Bound

/-!
Cauchy's bound separates all roots from the points beyond it.

* **The estimate.** Coefficients of absolute value at most `m A` have at a point with
  `1 + m ≤ |x|` a value of at most `A (|x| ^ n - 1)`, where `n` is their number
  (`Coefficients.abs_eval_le`). Horner's method proves it: a step multiplies the estimate by `|x|`
  and adds `m A`.
* **The bound.** With the greatest ratio of a coefficient to the leading one for `m`, the estimate
  for the other coefficients is less than the leading term, at the bound itself too. So the leading
  term gives the sign (`rationalSign_eval`).
* **Multiples** have the same ratios (`rootRatio_scale`).

Main statement: `cauchyBound_separates`.
-/

open Polynomial

namespace ExactAlgebra

/-! ### The estimate -/

namespace Coefficients

/-- The values of Horner's method grow no faster than a geometric sum. -/
lemma abs_eval_le {m A x : ℚ} (hx : 1 + m ≤ |x|) (hA : 0 ≤ A) {as : List ℚ}
    (has : ∀ a ∈ as, |a| ≤ m * A) : |eval x as| ≤ A * (|x| ^ as.length - 1) := by
  induction as with
  | nil => simp [eval]
  | cons a as ih =>
      rw [List.forall_mem_cons] at has
      have hvalue : eval x (a :: as) = eval x as * x + a := rfl
      -- Horner: one more factor `x`, and one more coefficient that `m A` bounds
      calc |eval x (a :: as)|
          ≤ |eval x as| * |x| + |a| := by
            rw [hvalue, ← abs_mul]
            exact abs_add_le _ _
        _ ≤ A * (|x| ^ as.length - 1) * |x| + m * A := by
            gcongr
            · exact ih has.2
            · exact has.1
        _ = A * (|x| ^ (a :: as).length - |x| + m) := by
            rw [List.length_cons, pow_succ]
            ring
        _ ≤ A * (|x| ^ (a :: as).length - 1) := by
            gcongr
            linarith

end Coefficients

namespace Polynomial

variable {p : Polynomial}

/-! ### The greatest ratio -/

/-- The greatest absolute value of the ratio of a coefficient to the leading one. -/
def rootRatio (p : Polynomial) : ℚ :=
  (p.ascending.dropLast.map fun c => (c / p.leadingCoefficient).abs).foldr larger 0

lemma cauchyBound_eq (hp : p.isZero = false) : p.cauchyBound = .ok (1 + p.rootRatio) := by
  rw [cauchyBound, if_neg (by simp [hp])]
  rfl

lemma le_foldr_larger {a : ℚ} {l : List ℚ} (h : a ∈ l) : a ≤ l.foldr larger 0 := by
  induction l with
  | nil => exact absurd h List.not_mem_nil
  | cons b l ih =>
      have hmax : larger b (l.foldr larger 0) = max b (l.foldr larger 0) := by
        rw [larger, max_def]
      rw [List.foldr_cons, hmax]
      rcases List.mem_cons.mp h with rfl | h
      · exact le_max_left _ _
      · exact le_max_of_le_right (ih h)

lemma abs_le_rootRatio_mul (hp : p.isZero = false) {a : ℚ} (ha : a ∈ p.ascending.dropLast) :
    |a| ≤ p.rootRatio * |p.leadingCoefficient| := by
  have hlead : 0 < |p.leadingCoefficient| := abs_pos.mpr (leadingCoefficient_ne_zero hp)
  have hratio : |a / p.leadingCoefficient| ≤ p.rootRatio := by
    rw [← ratAbs_eq]
    exact le_foldr_larger (List.mem_map.mpr ⟨a, ha, rfl⟩)
  rwa [abs_div, div_le_iff₀ hlead] at hratio

/-! ### The leading term -/

lemma toNat_degree (p : Polynomial) : p.degree.toNat = p.ascending.dropLast.length := by
  rw [degree, List.length_dropLast]
  omega

/-- The value of a polynomial is that of its lower terms and of its leading term. -/
lemma eval_eq_add_leading (hp : p.isZero = false) (x : ℚ) :
    p.eval x = Coefficients.eval x p.ascending.dropLast
      + p.leadingCoefficient * x ^ p.degree.toNat := by
  calc p.eval x
      = (Coefficients.toPoly (p.ascending.dropLast ++ [p.leadingCoefficient])).eval x := by
        rw [dropLast_append_leadingCoefficient hp, eval_eq]
        rfl
    _ = Coefficients.eval x p.ascending.dropLast + p.leadingCoefficient * x ^ p.degree.toNat := by
        rw [Coefficients.toPoly_append, Coefficients.toPoly_cons, Coefficients.toPoly_nil,
          mul_zero, add_zero, eval_add, eval_mul, eval_pow, eval_X, eval_C,
          Coefficients.eval_toPoly, toNat_degree, mul_comm]

/-- From the bound on, the other terms are together less than the leading term. -/
lemma abs_eval_dropLast_lt (hp : p.isZero = false) {x : ℚ} (hx : 1 + p.rootRatio ≤ |x|) :
    |Coefficients.eval x p.ascending.dropLast| < |p.leadingCoefficient * x ^ p.degree.toNat| := by
  have hlead : 0 < |p.leadingCoefficient| := abs_pos.mpr (leadingCoefficient_ne_zero hp)
  calc |Coefficients.eval x p.ascending.dropLast|
      ≤ |p.leadingCoefficient| * (|x| ^ p.ascending.dropLast.length - 1) :=
        Coefficients.abs_eval_le hx hlead.le fun a ha => abs_le_rootRatio_mul hp ha
    _ < |p.leadingCoefficient| * |x| ^ p.ascending.dropLast.length := by
        gcongr
        linarith
    _ = |p.leadingCoefficient * x ^ p.degree.toNat| := by rw [abs_mul, abs_pow, toNat_degree]

/-- From the bound on, the leading term gives the sign. -/
lemma rationalSign_eval (hp : p.isZero = false) {x : ℚ} (hx : 1 + p.rootRatio ≤ |x|) :
    rationalSign (p.eval x)
      = rationalSign p.leadingCoefficient * rationalSign x ^ p.degree.toNat := by
  rw [eval_eq_add_leading hp, rationalSign_add_of_abs_lt (abs_eval_dropLast_lt hp hx),
    rationalSign_mul, rationalSign_pow]

/-- Roots lie within the bound. -/
lemma abs_lt_of_eval_eq_zero (hp : p.isZero = false) {r : ℚ} (hr : p.eval r = 0) :
    |r| < 1 + p.rootRatio := by
  by_contra! hle
  have hlt := abs_eval_dropLast_lt hp hle
  rw [eval_eq_add_leading hp] at hr
  rw [eq_neg_of_add_eq_zero_left hr, abs_neg] at hlt
  exact lt_irrefl _ hlt

/-! ### Multiples -/

lemma ascending_scale {c : ℚ} (hc : c ≠ 0) (p : Polynomial) :
    (p.scale c).ascending = p.ascending.map fun a => a * c := by
  refine Coefficients.trim_eq_self ?_
  rw [Coefficients.Trimmed, Coefficients.scale, List.getLast?_map]
  intro h
  obtain ⟨a, ha, hac⟩ := Option.map_eq_some_iff.mp h
  rw [(mul_eq_zero.mp hac).resolve_right hc] at ha
  exact p.trimmed ha

/-- A multiple has the ratios of the polynomial. -/
lemma rootRatio_scale (p : Polynomial) {c : ℚ} (hc : c ≠ 0) :
    (p.scale c).rootRatio = p.rootRatio := by
  have hlead : (p.scale c).leadingCoefficient = p.leadingCoefficient * c := by
    rw [leadingCoefficient_eq, leadingCoefficient_eq, toPoly_scale, leadingCoeff_mul,
      leadingCoeff_C, mul_comm]
  rw [rootRatio, rootRatio, hlead, ascending_scale hc, ← List.map_dropLast, List.map_map]
  congr 2
  funext a
  exact congrArg Rat.abs (mul_div_mul_right a _ hc)

/-- **Cauchy's bound separates all roots.** A nonzero polynomial has a bound. At every point whose
absolute value is at least the bound, the value has the sign of the leading term, so that every root
is less than the bound in absolute value. A nonzero multiple has the same bound. -/
theorem cauchyBound_separates (p : Polynomial) (hp : p.isZero = false) :
    ∃ b, p.cauchyBound = .ok b
      ∧ (∀ x, b ≤ |x| → rationalSign (p.eval x)
        = rationalSign p.leadingCoefficient * rationalSign x ^ p.degree.toNat)
      ∧ (∀ r, p.eval r = 0 → |r| < b)
      ∧ ∀ c, c ≠ 0 → (p.scale c).cauchyBound = .ok b := by
  refine ⟨1 + p.rootRatio, cauchyBound_eq hp, fun x hx => rationalSign_eval hp hx,
    fun r hr => abs_lt_of_eval_eq_zero hp hr, fun c hc => ?_⟩
  rw [cauchyBound_eq (isZero_scale hp hc), rootRatio_scale p hc]

/-- The polynomial `-2x³ + 5x² + 3x` has the bound `7/2` and the roots `-1/2`, `0` and `3`; at the
two points `7/2` and `-7/2` it has the signs of `-2x³`. -/
theorem cauchyBound_separates_cubic :
    let p := ofList [0, 3, 5, -2] none
    p.isZero = false ∧ p.cauchyBound = .ok (7/2)
      ∧ (7/2 : ℚ) ≤ |7/2| ∧ rationalSign (p.eval (7/2)) = -1
      ∧ (7/2 : ℚ) ≤ |-7/2| ∧ rationalSign (p.eval (-7/2)) = 1
      ∧ p.eval 3 = 0 ∧ |(3 : ℚ)| < 7/2
      ∧ (-1/3 : ℚ) ≠ 0 ∧ (p.scale (-1/3)).cauchyBound = .ok (7/2) := by
  intro p
  have hp : p.isZero = false := by decide +kernel
  have hb : p.cauchyBound = .ok (7/2) := by decide +kernel
  have hright : (7/2 : ℚ) ≤ |7/2| := by decide +kernel
  have hleft : (7/2 : ℚ) ≤ |-7/2| := by decide +kernel
  have hroot : p.eval 3 = 0 := by decide +kernel
  have hc : (-1/3 : ℚ) ≠ 0 := by decide +kernel
  obtain ⟨b, hbound, hsign, hroots, hscale⟩ := cauchyBound_separates p hp
  obtain rfl : b = 7/2 := Except.ok.inj (hbound.symm.trans hb)
  refine ⟨hp, hb, hright, ?_, hleft, ?_, hroot, hroots 3 hroot, hc, hscale (-1/3) hc⟩
  · rw [hsign _ hright]
    decide +kernel
  · rw [hsign _ hleft]
    decide +kernel

end Polynomial

end ExactAlgebra
