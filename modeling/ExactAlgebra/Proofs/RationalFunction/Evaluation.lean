import ExactAlgebra.Proofs.RationalFunction.Field

/-!
Values of rational functions under the field operations.

A value is refused where the denominator that is stored vanishes (`failure_eval?_eq_iff`). The
results of the operations are not reduced, so that it is their stored denominators that decide.

* **Sums, differences and products** have the product of both denominators, and no value exactly
  where an operand has none (`failure_eval?_eq_iff_of_denominator`), even when a pole would cancel.
  Elsewhere the values are those of the operands combined (`eval?_add`, `eval?_sub`, `eval?_mul`).
* **Quotients** have the numerator of the divisor in their denominator (`toPoly_of_div?`). Where
  both operands have values, the quotient has one unless the divisor is zero there
  (`eval?_div?`, `failure_eval?_div?`).
* **The canonical form** keeps every value (`eval?_simplify`).

Main statement: `evaluation_laws`.
-/

open Polynomial

namespace ExactAlgebra.RationalFunction

variable {r s t : RationalFunction} {x u v : ℚ}

/-! ### Refusals -/

lemma failure_eval?_eq_iff :
    failure (r.eval? x) = some .divisionByZero ↔ r.denominator.toPoly.eval x = 0 := by
  rw [eval?, ← Polynomial.eval_eq]
  split
  · next h => exact iff_of_true rfl h
  · next h => simp [failure, h]

/-- A value is refused for a division by zero only. -/
lemma exists_eval?_of_failure_ne (h : failure (r.eval? x) ≠ some .divisionByZero) :
    ∃ v, r.eval? x = .ok v :=
  exists_eval?_eq_ok (failure_eval?_eq_iff.not.mp h)

/-- Over the product of two denominators a value is refused where one of the two is. -/
lemma failure_eval?_eq_iff_of_denominator
    (h : t.denominator.toPoly = r.denominator.toPoly * s.denominator.toPoly) :
    failure (t.eval? x) = some .divisionByZero ↔
      failure (r.eval? x) = some .divisionByZero ∨ failure (s.eval? x) = some .divisionByZero := by
  rw [failure_eval?_eq_iff, failure_eval?_eq_iff, failure_eval?_eq_iff, h, eval_mul, mul_eq_zero]

/-! ### Values -/

lemma eval?_sub (hr : r.eval? x = .ok u) (hs : s.eval? x = .ok v) :
    (r - s).eval? x = .ok (u - v) := by
  rw [eval?_eq_ok_iff] at hr hs ⊢
  simp only [toPoly_sub, eval_sub, eval_mul]
  refine ⟨mul_ne_zero hr.1 hs.1, ?_⟩
  rw [← hr.2, ← hs.2]
  ring

lemma eval?_mul (hr : r.eval? x = .ok u) (hs : s.eval? x = .ok v) :
    (r * s).eval? x = .ok (u * v) := by
  rw [eval?_eq_ok_iff] at hr hs ⊢
  simp only [toPoly_mul, eval_mul]
  refine ⟨mul_ne_zero hr.1 hs.1, ?_⟩
  rw [← hr.2, ← hs.2]
  ring

/-! ### Quotients -/

/-- Numerator and denominator of a quotient, as they are stored. -/
lemma toPoly_of_div? {q : RationalFunction} (h : r.div? s = .ok q) :
    q.numerator.toPoly = r.numerator.toPoly * s.denominator.toPoly
      ∧ q.denominator.toPoly = r.denominator.toPoly * s.numerator.toPoly := by
  rw [div?] at h
  split at h
  · cases h
    exact ⟨Polynomial.toPoly_mul _ _, Polynomial.toPoly_mul _ _⟩
  · cases h

lemma eval?_div? {q : RationalFunction} (hr : r.eval? x = .ok u) (hs : s.eval? x = .ok v)
    (hv : v ≠ 0) (h : r.div? s = .ok q) : q.eval? x = .ok (u / v) := by
  obtain ⟨hnum, hden⟩ := toPoly_of_div? h
  rw [eval?_eq_ok_iff] at hr hs ⊢
  rw [hnum, hden, eval_mul, eval_mul, ← hr.2, ← hs.2]
  refine ⟨mul_ne_zero hr.1 (mul_ne_zero hv hs.1), ?_⟩
  field_simp

/-- Where the divisor is zero the quotient has no value. -/
lemma failure_eval?_div? {q : RationalFunction} (hs : s.eval? x = .ok 0) (h : r.div? s = .ok q) :
    failure (q.eval? x) = some .divisionByZero := by
  rw [eval?_eq_ok_iff, zero_mul] at hs
  rw [failure_eval?_eq_iff, (toPoly_of_div? h).2, eval_mul, ← hs.2, mul_zero]

/-- **Evaluation commutes with the field operations, refusals included.** A sum, a difference and a
product are refused a value, as a division by zero, exactly where one of the operands is; elsewhere
both operands have values, and the value is the sum, the difference or the product of the two. A
division by a function that is not zero returns, and where both operands have values, the quotient
has the quotient of the values unless the divisor is zero there, and is refused a value if it is.
The canonical form has every value of the function. -/
theorem evaluation_laws (r s : RationalFunction) (x : ℚ) :
    (failure ((r + s).eval? x) = some .divisionByZero ↔
      failure (r.eval? x) = some .divisionByZero ∨ failure (s.eval? x) = some .divisionByZero)
    ∧ (failure ((r - s).eval? x) = some .divisionByZero ↔
      failure (r.eval? x) = some .divisionByZero ∨ failure (s.eval? x) = some .divisionByZero)
    ∧ (failure ((r * s).eval? x) = some .divisionByZero ↔
      failure (r.eval? x) = some .divisionByZero ∨ failure (s.eval? x) = some .divisionByZero)
    ∧ (failure (r.eval? x) ≠ some .divisionByZero →
      failure (s.eval? x) ≠ some .divisionByZero →
      ∃ u v, r.eval? x = .ok u ∧ s.eval? x = .ok v
        ∧ (r + s).eval? x = .ok (u + v) ∧ (r - s).eval? x = .ok (u - v)
        ∧ (r * s).eval? x = .ok (u * v))
    ∧ (s.isZero = false →
      ∃ q, r.div? s = .ok q ∧ ∀ u v, r.eval? x = .ok u → s.eval? x = .ok v →
        (v ≠ 0 → q.eval? x = .ok (u / v))
        ∧ (v = 0 → failure (q.eval? x) = some .divisionByZero))
    ∧ ∀ u, r.eval? x = .ok u → r.simplify.eval? x = .ok u := by
  refine ⟨failure_eval?_eq_iff_of_denominator (toPoly_add r s).2,
    failure_eval?_eq_iff_of_denominator (toPoly_sub r s).2,
    failure_eval?_eq_iff_of_denominator (toPoly_mul r s).2, fun hr hs => ?_, fun hs => ?_,
    fun u => eval?_simplify⟩
  · obtain ⟨u, hu⟩ := exists_eval?_of_failure_ne hr
    obtain ⟨v, hv⟩ := exists_eval?_of_failure_ne hs
    exact ⟨u, v, hu, hv, eval?_add hu hv, eval?_sub hu hv, eval?_mul hu hv⟩
  · obtain ⟨q, hq, -⟩ := div?_eq_ok r hs
    refine ⟨q, hq, fun u v hu hv => ⟨fun hv0 => eval?_div? hu hv hv0 hq, ?_⟩⟩
    rintro rfl
    exact failure_eval?_div? hv hq

/-- The functions `(x - 3) / (x² - 3x)` and `(x² - 25) / (x - 5)` at points where both have values,
the second one being zero at `-5`. In their product the pole at `3` would cancel; it has no value
there. -/
theorem evaluation_laws_unreduced :
    let r : RationalFunction := ⟨.ofList [-3, 1] none, .ofList [0, -3, 1] none, by decide +kernel⟩
    let s : RationalFunction := ⟨.ofList [-25, 0, 1] none, .ofList [-5, 1] none, by decide +kernel⟩
    failure (r.eval? 2) ≠ some .divisionByZero ∧ failure (s.eval? 2) ≠ some .divisionByZero
      ∧ (∃ u v, r.eval? 2 = .ok u ∧ s.eval? 2 = .ok v
        ∧ (r + s).eval? 2 = .ok (u + v) ∧ (r - s).eval? 2 = .ok (u - v)
        ∧ (r * s).eval? 2 = .ok (u * v))
      ∧ failure ((r * s).eval? 3) = some .divisionByZero
      ∧ s.isZero = false ∧ r.eval? 2 = .ok (1 / 2) ∧ s.eval? 2 = .ok 7
      ∧ r.eval? (-5) = .ok (-1 / 5) ∧ s.eval? (-5) = .ok 0
      ∧ (∃ q, r.div? s = .ok q ∧ q.eval? 2 = .ok (1 / 2 / 7))
      ∧ (∃ q, r.div? s = .ok q ∧ failure (q.eval? (-5)) = some .divisionByZero)
      ∧ r.simplify.eval? 2 = .ok (1 / 2) := by
  intro r s
  have hr : r.eval? 2 = .ok (1 / 2) := by decide +kernel
  have hs : s.eval? 2 = .ok 7 := by decide +kernel
  have hr' : r.eval? (-5) = .ok (-1 / 5) := by decide +kernel
  have hs' : s.eval? (-5) = .ok 0 := by decide +kernel
  have hpole : failure (r.eval? 3) = some .divisionByZero := by decide +kernel
  have hzero : s.isZero = false := by decide +kernel
  have hrdef := failure_ne_some hr .divisionByZero
  have hsdef := failure_ne_some hs .divisionByZero
  obtain ⟨-, -, -, hvalues, hdiv, hsimplify⟩ := evaluation_laws r s 2
  obtain ⟨-, -, hmul, -, -, -⟩ := evaluation_laws r s 3
  obtain ⟨-, -, -, -, hdiv', -⟩ := evaluation_laws r s (-5)
  obtain ⟨q, hq, hquotient⟩ := hdiv hzero
  obtain ⟨q', hq', hquotient'⟩ := hdiv' hzero
  exact ⟨hrdef, hsdef, hvalues hrdef hsdef, hmul.mpr (.inl hpole), hzero, hr, hs, hr', hs',
    ⟨q, hq, (hquotient _ _ hr hs).1 (by decide)⟩, ⟨q', hq', (hquotient' _ _ hr' hs').2 rfl⟩,
    hsimplify _ hr⟩

end ExactAlgebra.RationalFunction
