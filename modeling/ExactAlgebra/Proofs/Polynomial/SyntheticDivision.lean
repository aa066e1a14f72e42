import ExactAlgebra.Proofs.Polynomial.LongDivision

/-!
Synthetic division, long division and Horner's method find the same numbers.

* **The running values** of Horner's method are defined from the low end of the coefficient list.
  Read backwards they are the run from the leading coefficient down
  (`reverse_runningValues_concat`, `hornerSteps_eq_scanl`), which ends in the value
  (`getLast?_hornerSteps`). The first of them is the leading coefficient, so that no zero is lost
  when they are taken for the coefficients of a quotient (`ascending_quotient`).
* **The quotient.** For a polynomial that is not constant these are the steps before the last one
  (`coefficients_quotient`), and for a constant the quotient is zero (`isZero_quotient`).
* **Long division** by `x - c` has the same two results, since they satisfy the division identity
  and the remainder is constant (`toPoly_div_mod_linear`).

Main statement: `linear_division_agrees`.
-/

open Polynomial

namespace ExactAlgebra

/-! ### Running values -/

namespace Coefficients

/-- Read backwards, the running values are the run of Horner's step from the leading coefficient
down. -/
lemma reverse_runningValues_concat (c a : ℚ) (as : List ℚ) :
    (runningValues c (as ++ [a])).reverse = as.reverse.scanl (fun v b => v * c + b) a := by
  induction as with
  | nil => rfl
  | cons b as ih =>
      obtain ⟨v, vs, hvs⟩ : ∃ v vs, runningValues c (as ++ [a]) = v :: vs := by
        refine List.exists_cons_of_length_pos ?_
        rw [Polynomial.length_runningValues, List.length_append]
        exact Nat.succ_pos _
      -- the head of the running values is what the run has come to
      have hrun : as.reverse.foldl (fun v b => v * c + b) a = v := by
        have hlast := List.getLast?_scanl (b := a) (l := as.reverse) (f := fun v b => v * c + b)
        rw [← ih, hvs, List.getLast?_reverse, List.head?_cons, Option.some.injEq] at hlast
        exact hlast.symm
      calc (runningValues c (b :: as ++ [a])).reverse
          = (runningValues c (as ++ [a])).reverse ++ [v * c + b] := by
            rw [List.cons_append, runningValues, hvs, List.reverse_cons]
        _ = (b :: as).reverse.scanl (fun v b => v * c + b) a := by
            rw [ih, List.reverse_cons, List.scanl_append, hrun]
            rfl

/-- The first running value is the leading coefficient. -/
lemma getLast?_runningValues (c : ℚ) (as : List ℚ) :
    (runningValues c as).getLast? = as.getLast? := by
  rcases List.eq_nil_or_concat as with rfl | ⟨as, a, rfl⟩
  · rfl
  · rw [List.concat_eq_append, ← List.head?_reverse, reverse_runningValues_concat,
      List.getLast?_concat, List.head?_scanl]

end Coefficients

namespace Polynomial

/-! ### Horner's method -/

/-- The shown coefficients end in the leading one, those of zero too. -/
lemma dropLast_coefficients_append (p : Polynomial) :
    p.coefficients.dropLast ++ [p.leadingCoefficient] = p.coefficients := by
  rw [coefficients]
  split
  · next hp => rw [leadingCoefficient, List.isEmpty_iff.mp hp]; rfl
  · next hp => exact dropLast_append_leadingCoefficient (Bool.eq_false_iff.mpr hp)

/-- The steps of Horner's method run from the leading coefficient down. -/
lemma hornerSteps_eq_scanl (p : Polynomial) (c : ℚ) :
    p.hornerSteps c
      = p.coefficients.dropLast.reverse.scanl (fun v a => v * c + a) p.leadingCoefficient := by
  rw [hornerSteps, ← dropLast_coefficients_append,
    Coefficients.reverse_runningValues_concat, List.dropLast_concat]

/-- Horner's method ends in the value. -/
lemma getLast?_hornerSteps (p : Polynomial) (c : ℚ) :
    (p.hornerSteps c).getLast? = some (p.eval c) := by
  have hvalue : p.eval c = Coefficients.eval c p.coefficients := by
    rw [eval_eq, ← toPoly_ofList_coefficients, Coefficients.eval_toPoly]
  rw [hornerSteps_eq_scanl, List.getLast?_scanl, List.foldl_reverse, hvalue,
    ← dropLast_coefficients_append, Coefficients.eval, List.foldr_append,
    List.dropLast_concat, List.foldr_cons, List.foldr_nil, zero_mul, zero_add]

/-! ### Synthetic division -/

/-- The quotient has the running values before the last one, none of them lost. -/
lemma ascending_quotient (p : Polynomial) (c : ℚ) :
    (p.syntheticDivide c).quotient.ascending
      = (Coefficients.runningValues c p.ascending).tail := by
  refine Coefficients.trim_eq_self ?_
  rw [Coefficients.Trimmed, List.getLast?_tail]
  split
  · simp
  · rw [Coefficients.getLast?_runningValues]
    exact p.trimmed

/-- The quotient of a constant is zero. -/
lemma isZero_quotient {p : Polynomial} (hp : p.degree < 1) (c : ℚ) :
    (p.syntheticDivide c).quotient.isZero = true := by
  rw [degree] at hp
  rw [isZero_iff, ascending_quotient, ← List.length_eq_zero_iff, List.length_tail,
    length_runningValues]
  omega

/-- The coefficients of the quotient are the steps of Horner's method before the last one. -/
lemma coefficients_quotient {p : Polynomial} (hp : 1 ≤ p.degree) (c : ℚ) :
    (p.syntheticDivide c).quotient.coefficients = (p.hornerSteps c).dropLast.reverse := by
  rw [degree] at hp
  have hshown : p.coefficients = p.ascending := by
    rw [coefficients, if_neg]
    rw [List.isEmpty_iff, ← List.length_eq_zero_iff]
    omega
  rw [hornerSteps, List.dropLast_reverse, List.reverse_reverse, hshown, ← ascending_quotient,
    coefficients, if_neg]
  rw [List.isEmpty_iff, ← List.length_eq_zero_iff, ascending_quotient, List.length_tail,
    length_runningValues]
  omega

/-! ### Long division by `x - c` -/

/-- Long division by `x - c` has the results of synthetic division. -/
lemma toPoly_div_mod_linear (p : Polynomial) (c : ℚ) (label : Option String) :
    (p / linear c label).toPoly = (p.syntheticDivide c).quotient.toPoly
      ∧ (p % linear c label).toPoly = C (p.syntheticDivide c).remainder := by
  have hlinear := isZero_linear c label
  refine divMod_unique (d := (linear c label).toPoly) ?_ (degree_toPoly_mod_lt p hlinear) ?_
  · rw [toPoly_div_add_mod p hlinear, toPoly_linear, mul_comm, ← toPoly_syntheticDivide]
  · rw [toPoly_linear, degree_X_sub_C]
    exact lt_of_le_of_lt degree_C_le one_pos

/-- **Synthetic division, long division and Horner's method agree.** Synthetic division by `x - c`
satisfies the division identity. Long division by the polynomial `x - c` returns the same quotient
and, as a constant, the same remainder. The remainder is the value at `c`. Horner's method goes from
the leading coefficient down and ends in it, and the steps before are the coefficients of the
quotient in descending order, unless the polynomial is constant and the quotient zero. -/
theorem linear_division_agrees (p : Polynomial) (c : ℚ) (label : Option String) :
    let d := p.syntheticDivide c
    (d.quotient * linear c label + const d.remainder label == p) = true
    ∧ (∃ q r, p.divMod? (linear c label) = .ok (q, r)
      ∧ q.coefficients = d.quotient.coefficients ∧ r.coefficients = [d.remainder])
    ∧ d.remainder = p.eval c
    ∧ p.hornerSteps c
      = p.coefficients.dropLast.reverse.scanl (fun v a => v * c + a) p.leadingCoefficient
    ∧ (p.hornerSteps c).getLast? = some d.remainder
    ∧ (1 ≤ p.degree → d.quotient.coefficients = (p.hornerSteps c).dropLast.reverse)
    ∧ (p.degree < 1 → d.quotient.isZero = true) := by
  intro d
  have hrem : d.remainder = p.eval c := remainder_syntheticDivide p c
  -- quotients and remainders are compared in `ℚ[X]`, where both divisions are the same
  refine ⟨?_, ⟨_, _, divMod?_eq_ok p (isZero_linear c label), ?_, ?_⟩, hrem,
    hornerSteps_eq_scanl p c, ?_, fun hp => coefficients_quotient hp c,
    fun hp => isZero_quotient hp c⟩
  · rw [beq_iff_toPoly, toPoly_add, toPoly_mul, toPoly_linear, toPoly_const, mul_comm,
      ← toPoly_syntheticDivide]
  · rw [coefficients_eq_iff]
    exact (toPoly_div_mod_linear p c label).1
  · rw [← coefficients_const d.remainder none, coefficients_eq_iff, toPoly_const]
    exact (toPoly_div_mod_linear p c label).2
  · rw [hrem, getLast?_hornerSteps]

/-- The cubic `2x³ - x + 1/2` with a gap, divided by `x + 1/2`, and a constant divided by
`x - 3`. -/
theorem linear_division_agrees_gap :
    let p := ofList [1/2, -1, 0, 2] (some "t")
    let k := const 7 none
    1 ≤ p.degree ∧ k.degree < 1
      ∧ p.hornerSteps (-1/2) = [2, -1, -1/2, 3/4]
      ∧ (p.syntheticDivide (-1/2)).remainder = 3/4
      ∧ (p.syntheticDivide (-1/2)).quotient.coefficients = [-1/2, -1, 2]
      ∧ (∃ q r, p.divMod? (linear (-1/2) none) = .ok (q, r)
        ∧ q.coefficients = [-1/2, -1, 2] ∧ r.coefficients = [3/4])
      ∧ (k.syntheticDivide 3).quotient.isZero = true := by
  intro p k
  have hp : 1 ≤ p.degree := by decide +kernel
  have hk : k.degree < 1 := by decide +kernel
  have hsteps : p.hornerSteps (-1/2) = [2, -1, -1/2, 3/4] := by decide +kernel
  obtain ⟨-, ⟨q, r, hdiv, hq, hr⟩, -, -, hlast, hquotient, -⟩ :=
    linear_division_agrees p (-1/2) none
  obtain ⟨-, -, -, -, -, -, hzero⟩ := linear_division_agrees k 3 none
  have hrem : (p.syntheticDivide (-1/2)).remainder = 3/4 := by
    rw [hsteps] at hlast
    exact (Option.some.inj hlast).symm
  have hcoefficients : (p.syntheticDivide (-1/2)).quotient.coefficients = [-1/2, -1, 2] := by
    rw [hquotient hp, hsteps]
    rfl
  rw [hcoefficients] at hq
  rw [hrem] at hr
  exact ⟨hp, hk, hsteps, hrem, hcoefficients, ⟨q, r, hdiv, hq, hr⟩, hzero hk⟩

end Polynomial

end ExactAlgebra
