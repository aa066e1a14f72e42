import ExactAlgebra.Proofs.RationalFunction.Evaluation
import ExactAlgebra.Proofs.Roots.PointMultiplicity
import ExactAlgebra.Proofs.Roots.Rational
import ExactAlgebra.RationalFunction.Calculus

/-!
Poles and zeros of rational functions.

* **Values.** A value is refused exactly where the denominator vanishes
  (`failure_eval?_eq_iff`), and it is zero where the numerator alone does (`eval?_eq_ok_zero_iff`).
* **Lists.** `poles?` and `zeros?` list the roots of denominator and numerator
  (`mem_poles?_iff`, `mem_zeros?_iff`). Zero has no list of zeros (`failure_zeros?_eq_iff`).
* **The canonical form.** Its denominator vanishes where the denominator has the greater
  multiplicity, and its numerator where the numerator has (`eval_simplify_denominator_eq_zero_iff`,
  `eval_simplify_numerator_eq_zero_iff`).

Main statement: `poles_zeros_agree`.
-/

open Polynomial

namespace ExactAlgebra.RationalFunction

variable {r : RationalFunction} {x : ℚ} {l : List ℚ}

/-! ### Values -/

lemma eval?_eq_ok_zero_iff :
    r.eval? x = .ok 0 ↔ r.denominator.toPoly.eval x ≠ 0 ∧ r.numerator.toPoly.eval x = 0 := by
  rw [eval?_eq_ok_iff, zero_mul, eq_comm (a := 0)]

/-! ### Lists -/

lemma mem_poles?_iff (h : r.poles? = .ok l) : x ∈ l ↔ r.denominator.toPoly.eval x = 0 :=
  (Polynomial.rationalRoots_spec_of_eq_ok h).2 x

lemma mem_zeros?_iff (h : r.zeros? = .ok l) : x ∈ l ↔ r.numerator.toPoly.eval x = 0 :=
  (Polynomial.rationalRoots_spec_of_eq_ok h).2 x

lemma failure_zeros?_eq_iff : failure r.zeros? = some .invalidArgument ↔ r.isZero = true :=
  Polynomial.failure_rationalRoots_eq_iff

/-! ### The canonical form -/

/-- A pole is left where the denominator has the greater multiplicity. -/
lemma eval_simplify_denominator_eq_zero_iff :
    r.simplify.denominator.toPoly.eval x = 0 ↔
      multiplicityAt x r.numerator.toPoly < multiplicityAt x r.denominator.toPoly := by
  obtain ⟨k, hk, hcoprime, hnum, hden⟩ := r.exists_eq_mul_isCoprime
  rw [eval_eq_zero_iff_multiplicityAt_mul_lt hcoprime hk, ← hnum, ← hden]

/-- A zero is left where the numerator has the greater multiplicity. -/
lemma eval_simplify_numerator_eq_zero_iff :
    r.simplify.numerator.toPoly.eval x = 0 ↔
      multiplicityAt x r.denominator.toPoly < multiplicityAt x r.numerator.toPoly := by
  obtain ⟨k, hk, hcoprime, hnum, hden⟩ := r.exists_eq_mul_isCoprime
  rw [eval_eq_zero_iff_multiplicityAt_mul_lt hcoprime.symm hk, ← hnum, ← hden]

/-- Where its numerator vanishes, the canonical form has the value zero. -/
lemma eval?_simplify_eq_ok_zero_iff :
    r.simplify.eval? x = .ok 0 ↔ r.simplify.numerator.toPoly.eval x = 0 := by
  rw [eval?_eq_ok_zero_iff, and_iff_right_iff_imp, Ne, eval_simplify_numerator_eq_zero_iff,
    eval_simplify_denominator_eq_zero_iff, not_lt]
  exact le_of_lt

/-- **Poles, zeros, values and the canonical form agree.** A list of poles has the points where the
evaluation is refused as a division by zero, and a list of zeros has, apart from poles, the points
where the value is zero. The canonical form has a pole where the denominator has the greater
multiplicity and a zero where the numerator has, by its values and by its lists. So none of its
poles is one of its zeros, its poles are among the poles of the function and its zeros among the
zeros. Zero alone is refused a list of zeros. -/
theorem poles_zeros_agree (r : RationalFunction) :
    (∀ ps, r.poles? = .ok ps → ∀ x, x ∈ ps ↔ failure (r.eval? x) = some .divisionByZero)
    ∧ (∀ ps zs, r.poles? = .ok ps → r.zeros? = .ok zs →
        ∀ x, x ∉ ps → (x ∈ zs ↔ r.eval? x = .ok 0))
    ∧ (∀ x, (failure (r.simplify.eval? x) = some .divisionByZero ↔
          multiplicityAt x r.numerator.toPoly < multiplicityAt x r.denominator.toPoly)
        ∧ (r.simplify.eval? x = .ok 0 ↔
          multiplicityAt x r.denominator.toPoly < multiplicityAt x r.numerator.toPoly))
    ∧ (∀ ps, r.simplify.poles? = .ok ps →
        (∀ x, x ∈ ps ↔ multiplicityAt x r.numerator.toPoly < multiplicityAt x r.denominator.toPoly)
        ∧ ∀ qs, r.poles? = .ok qs → ps ⊆ qs)
    ∧ (∀ zs, r.simplify.zeros? = .ok zs →
        (∀ x, x ∈ zs ↔ multiplicityAt x r.denominator.toPoly < multiplicityAt x r.numerator.toPoly)
        ∧ ∀ ys, r.zeros? = .ok ys → zs ⊆ ys)
    ∧ (∀ ps zs, r.simplify.poles? = .ok ps → r.simplify.zeros? = .ok zs → ps.Disjoint zs)
    ∧ (failure r.zeros? = some .invalidArgument ↔ r.isZero = true) := by
  -- every list is turned into a condition on values, and the values of the canonical form into
  -- conditions on multiplicities
  refine ⟨fun ps hps x => ?_, fun ps zs hps hzs x hx => ?_, fun x => ⟨?_, ?_⟩,
    fun ps hps => ⟨fun x => ?_, fun qs hqs x hx => ?_⟩,
    fun zs hzs => ⟨fun x => ?_, fun ys hys x hx => ?_⟩, fun ps zs hps hzs x hx hx' => ?_,
    failure_zeros?_eq_iff⟩
  · rw [mem_poles?_iff hps, failure_eval?_eq_iff]
  · rw [mem_poles?_iff hps] at hx
    rw [mem_zeros?_iff hzs, eval?_eq_ok_zero_iff, and_iff_right hx]
  · rw [failure_eval?_eq_iff, eval_simplify_denominator_eq_zero_iff]
  · rw [eval?_simplify_eq_ok_zero_iff, eval_simplify_numerator_eq_zero_iff]
  · rw [mem_poles?_iff hps, eval_simplify_denominator_eq_zero_iff]
  · rw [mem_poles?_iff hps, eval_simplify_denominator_eq_zero_iff] at hx
    exact (mem_poles?_iff hqs).mpr (eval_eq_zero_of_multiplicityAt_lt hx)
  · rw [mem_zeros?_iff hzs, eval_simplify_numerator_eq_zero_iff]
  · rw [mem_zeros?_iff hzs, eval_simplify_numerator_eq_zero_iff] at hx
    exact (mem_zeros?_iff hys).mpr (eval_eq_zero_of_multiplicityAt_lt hx)
  · rw [mem_poles?_iff hps, eval_simplify_denominator_eq_zero_iff] at hx
    rw [mem_zeros?_iff hzs, eval_simplify_numerator_eq_zero_iff] at hx'
    exact lt_asymm hx hx'

/-- The quotient of `x (x - 1)² (x - 2)` by `x (x - 1) (x - 2)²`, which has three poles, all of them
zeros as well. One of each is left in the canonical form `(x - 1) / (x - 2)`. -/
theorem poles_zeros_agree_unreduced :
    let r : RationalFunction :=
      ⟨.ofList [0, -2, 5, -4, 1] none, .ofList [0, -4, 8, -5, 1] none, by decide +kernel⟩
    r.poles? = .ok [0, 1, 2] ∧ r.zeros? = .ok [0, 1, 2]
      ∧ r.simplify.poles? = .ok [2] ∧ r.simplify.zeros? = .ok [1]
      ∧ failure (r.eval? 1) = some .divisionByZero
      ∧ r.eval? 3 ≠ .ok 0
      ∧ multiplicityAt 2 r.numerator.toPoly < multiplicityAt 2 r.denominator.toPoly
      ∧ multiplicityAt 1 r.denominator.toPoly < multiplicityAt 1 r.numerator.toPoly
      ∧ ¬multiplicityAt 0 r.numerator.toPoly < multiplicityAt 0 r.denominator.toPoly
      ∧ ¬multiplicityAt 0 r.denominator.toPoly < multiplicityAt 0 r.numerator.toPoly
      ∧ [2] ⊆ [0, 1, (2 : ℚ)] ∧ [1] ⊆ [0, 1, (2 : ℚ)] ∧ [2].Disjoint [(1 : ℚ)] := by
  intro r
  have hpoles : r.poles? = .ok [0, 1, 2] := by decide +kernel
  have hzeros : r.zeros? = .ok [0, 1, 2] := by decide +kernel
  have hpoles' : r.simplify.poles? = .ok [2] := by decide +kernel
  have hzeros' : r.simplify.zeros? = .ok [1] := by decide +kernel
  obtain ⟨hrefused, hvalue, -, hsimplePoles, hsimpleZeros, hdisjoint, -⟩ := poles_zeros_agree r
  obtain ⟨hleft, hamong⟩ := hsimplePoles _ hpoles'
  obtain ⟨hleft', hamong'⟩ := hsimpleZeros _ hzeros'
  exact ⟨hpoles, hzeros, hpoles', hzeros', (hrefused _ hpoles 1).mp (by decide),
    (hvalue _ _ hpoles hzeros 3 (by decide)).not.mp (by decide), (hleft 2).mp (by decide),
    (hleft' 1).mp (by decide), (hleft 0).not.mp (by decide), (hleft' 0).not.mp (by decide),
    hamong _ hpoles, hamong' _ hzeros, hdisjoint _ _ hpoles' hzeros'⟩

end ExactAlgebra.RationalFunction
