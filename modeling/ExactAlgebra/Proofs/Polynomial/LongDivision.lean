import ExactAlgebra.Proofs.Outcome
import ExactAlgebra.Proofs.Polynomial.Division

/-!
Long division of polynomials is exact and unique.

Each step of the division brings one coefficient of the dividend down and cancels the highest
place of the remainder; the places that are cut off hold zeros
(`Coefficients.getD_sub_cancel`), so that the division identity is kept
(`Coefficients.toPoly_divMod`). The degree of the remainder is below that of the divisor
(`degree_remainder_lt`), and this bound with the identity determines both results: the operands of
`q * d + r` are found again (`div_eq_withLabel`, `mod_eq_withLabel`).

Main statement: `division_law`.
-/

open Polynomial

namespace ExactAlgebra.Polynomial

variable {q r d : Polynomial}

/-- The remainder has a smaller degree than the divisor, the zero remainder too. -/
lemma degree_remainder_lt (p : Polynomial) (hd : d.isZero = false) : (p % d).degree < d.degree :=
  (degree_lt_degree_iff hd).mpr (degree_toPoly_mod_lt p hd)

/-- Dividing `q d + r` finds `q` and `r` when the degree of `r` is below that of `d`. -/
lemma toPoly_div_mod_mul_add (hd : d.isZero = false) (hr : r.degree < d.degree) :
    ((q * d + r) / d).toPoly = q.toPoly ∧ ((q * d + r) % d).toPoly = r.toPoly := by
  refine divMod_unique (d := d.toPoly) ?_ (degree_toPoly_mod_lt _ hd)
    ((degree_lt_degree_iff hd).mp hr)
  rw [toPoly_div_add_mod _ hd, toPoly_add, toPoly_mul]

/-- The quotient of `q d + r` is `q`, under the label of the two operands. -/
lemma div_eq_withLabel (hd : d.isZero = false) (hr : r.degree < d.degree) :
    (q * d + r) / d = q.withLabel ((q * d + r).jointLabel d) :=
  eq_withLabel_of_toPoly_eq (toPoly_div_mod_mul_add hd hr).1

/-- The remainder of `q d + r` is `r`, under the same label. -/
lemma mod_eq_withLabel (hd : d.isZero = false) (hr : r.degree < d.degree) :
    (q * d + r) % d = r.withLabel ((q * d + r).jointLabel d) :=
  eq_withLabel_of_toPoly_eq (toPoly_div_mod_mul_add hd hr).2

/-- Long division is refused exactly when the divisor is zero. -/
lemma failure_divMod? (p d : Polynomial) :
    failure (p.divMod? d) = if d.isZero then some .divisionByZero else none := by
  rw [divMod?]
  split <;> rfl

/-- **Long division is exact and unique.** By a polynomial that is not zero it returns a
quotient `q` and a remainder `r` with `q d + r = p`, the degree of `r`, which is `-1` for zero,
being below that of `d`. Whenever `q` and `r` are such polynomials, the division of `q d + r` by
`d` returns these two, under the label of its operands. It is refused exactly when the divisor is
zero, as a division by zero. -/
theorem division_law :
    (∀ p d : Polynomial, d.isZero = false →
      ∃ q r, p.divMod? d = .ok (q, r) ∧ (q * d + r == p) = true ∧ r.degree < d.degree
        ∧ (r.isZero = true → r.degree = -1))
    ∧ (∀ q r d : Polynomial, d.isZero = false → r.degree < d.degree →
      (q * d + r).divMod? d
        = .ok (q.withLabel ((q * d + r).jointLabel d), r.withLabel ((q * d + r).jointLabel d)))
    ∧ ∀ p d : Polynomial, failure (p.divMod? d) = some .divisionByZero ↔ d.isZero = true := by
  refine ⟨fun p d hd => ?_, fun q r d hd hr => ?_, fun p d => ?_⟩
  · refine ⟨p / d, p % d, divMod?_eq_ok p hd, ?_, degree_remainder_lt p hd, degree_zero_eq⟩
    rw [beq_iff_toPoly, toPoly_add, toPoly_mul, toPoly_div_add_mod p hd]
  · rw [divMod?_eq_ok _ hd, div_eq_withLabel hd hr, mod_eq_withLabel hd hr]
  · rw [failure_divMod?]
    cases d.isZero <;> simp

/-- Sparse operands with fractions, and a constant divisor: `x⁵ - 1/2` divided by `2x² + 1`, and
by `-3`, where the remainder is zero. -/
theorem division_law_sparse :
    let p : Polynomial := ofList [-1/2, 0, 0, 0, 0, 1] (some "t")
    let d : Polynomial := ofList [1, 0, 2] none
    let c : Polynomial := const (-3) none
    d.isZero = false ∧ c.isZero = false
      ∧ (∃ q r, p.divMod? d = .ok (q, r) ∧ (q * d + r == p) = true ∧ r.degree < d.degree
        ∧ (r.isZero = true → r.degree = -1))
      ∧ (zero none).degree < c.degree
      ∧ (p * c + zero none).divMod? c = .ok (p, zero (some "t"))
      ∧ (failure (p.divMod? (zero none)) = some .divisionByZero
        ↔ (zero none).isZero = true) := by
  intro p d c
  have hd : d.isZero = false := by decide +kernel
  have hc : c.isZero = false := by decide +kernel
  have hr : (zero none).degree < c.degree := by decide +kernel
  obtain ⟨hexact, hunique, hrefused⟩ := division_law
  exact ⟨hd, hc, hexact p d hd, hr, hunique p (zero none) c hc hr, hrefused p (zero none)⟩

end ExactAlgebra.Polynomial
