import Mathlib.Data.ENat.Basic
import ExactAlgebra.Proofs.Roots.LinearProduct

/-!
The multiplicity of a point as a root of a polynomial.

`multiplicityAt` counts the powers of `x - a` in a polynomial. It is zero where the polynomial
does not vanish (`multiplicityAt_eq_zero_iff`) and infinite for the polynomial zero alone
(`multiplicityAt_ne_top`).

* **Derivatives.** Differentiation takes one from the multiplicity of a root
  (`multiplicityAt_derivative_add_one`).
* **Common factors.** Two coprime polynomials do not vanish both. Of their multiples by one
  factor, the multiplicities tell which vanishes (`eval_eq_zero_iff_multiplicityAt_mul_lt`) and
  how often (`multiplicityAt_mul_eq_add`).
-/

open Polynomial

namespace ExactAlgebra

variable {f g k : ℚ[X]} {a : ℚ}

/-- The multiplicity of `a` as a root of a polynomial, zero where it does not vanish and infinite
for the polynomial zero. -/
noncomputable def multiplicityAt (a : ℚ) (f : ℚ[X]) : ℕ∞ := emultiplicity (X - C a) f

@[simp] lemma multiplicityAt_zero (a : ℚ) : multiplicityAt a 0 = ⊤ := emultiplicity_zero _

@[simp] lemma multiplicityAt_mul (a : ℚ) (f g : ℚ[X]) :
    multiplicityAt a (f * g) = multiplicityAt a f + multiplicityAt a g :=
  emultiplicity_mul (prime_X_sub_C a)

@[simp] lemma multiplicityAt_X_sub_C_pow (a : ℚ) (m : ℕ) :
    multiplicityAt a ((X - C a) ^ m) = m := emultiplicity_pow_self_of_prime (prime_X_sub_C a) m

lemma multiplicityAt_eq_zero_iff : multiplicityAt a f = 0 ↔ f.eval a ≠ 0 := by
  rw [multiplicityAt, emultiplicity_eq_zero, dvd_iff_isRoot, IsRoot.def]

lemma multiplicityAt_ne_zero_iff : multiplicityAt a f ≠ 0 ↔ f.eval a = 0 := by
  rw [Ne, multiplicityAt_eq_zero_iff, not_not]

lemma multiplicityAt_ne_top (hf : f ≠ 0) : multiplicityAt a f ≠ ⊤ :=
  finiteMultiplicity_iff_emultiplicity_ne_top.mp (finiteMultiplicity_X_sub_C a hf)

lemma multiplicityAt_eq_rootMultiplicity (hf : f ≠ 0) :
    multiplicityAt a f = f.rootMultiplicity a := by
  have := Classical.decEq ℚ
  rw [multiplicityAt, (finiteMultiplicity_X_sub_C a hf).emultiplicity_eq_multiplicity,
    rootMultiplicity_eq_multiplicity, if_neg hf]

/-- The smaller multiplicity is that of the difference. -/
lemma multiplicityAt_sub_of_lt (h : multiplicityAt a g < multiplicityAt a f) :
    multiplicityAt a (f - g) = multiplicityAt a g := emultiplicity_sub_of_gt h

/-- A polynomial with more powers of `x - a` than another one vanishes at `a`. -/
lemma eval_eq_zero_of_multiplicityAt_lt (h : multiplicityAt a f < multiplicityAt a g) :
    g.eval a = 0 :=
  multiplicityAt_ne_zero_iff.mp (pos_of_gt h).ne'

/-- A polynomial with as many powers of `x - a` as one that vanishes at `a` vanishes there. -/
lemma eval_eq_zero_of_multiplicityAt_le (h : multiplicityAt a f ≤ multiplicityAt a g)
    (hf : f.eval a = 0) : g.eval a = 0 := by
  rw [← multiplicityAt_ne_zero_iff] at hf ⊢
  exact fun hg => hf (nonpos_iff_eq_zero.mp (hg ▸ h))

/-! ### Derivatives -/

/-- A derivative vanishes for constants only, and of those zero alone has a root. -/
lemma derivative_ne_zero_of_eval_eq_zero (hf : f ≠ 0) (h : f.eval a = 0) : f.derivative ≠ 0 := by
  intro h0
  have hconst := eq_C_of_derivative_eq_zero h0
  rw [hconst, eval_C] at h
  exact hf (by rw [hconst, h, C_0])

/-- Differentiation takes one from the multiplicity of a root. -/
lemma multiplicityAt_derivative_add_one (h : f.eval a = 0) :
    multiplicityAt a f.derivative + 1 = multiplicityAt a f := by
  by_cases hf : f = 0
  · rw [hf, derivative_zero, multiplicityAt_zero, top_add]
  · have hpos : 1 ≤ f.rootMultiplicity a := (rootMultiplicity_pos hf).mpr h
    rw [multiplicityAt_eq_rootMultiplicity hf,
      multiplicityAt_eq_rootMultiplicity (derivative_ne_zero_of_eval_eq_zero hf h),
      derivative_rootMultiplicity_of_root h]
    exact_mod_cast Nat.sub_add_cancel hpos

lemma multiplicityAt_derivative_lt (hf : f ≠ 0) (h : f.eval a = 0) :
    multiplicityAt a f.derivative < multiplicityAt a f := by
  have hfinite := multiplicityAt_ne_top (a := a) (derivative_ne_zero_of_eval_eq_zero hf h)
  rw [← multiplicityAt_derivative_add_one h]
  exact (ENat.lt_add_one_iff hfinite).mpr le_rfl

/-! ### Common factors -/

/-- Coprime polynomials have no common root. -/
lemma multiplicityAt_eq_zero_or_of_isCoprime (h : IsCoprime f g) (a : ℚ) :
    multiplicityAt a f = 0 ∨ multiplicityAt a g = 0 := by
  simp only [multiplicityAt_eq_zero_iff]
  by_contra! hroots
  obtain ⟨u, v, huv⟩ := h
  have hvalue := congrArg (eval a) huv
  simp [hroots.1, hroots.2] at hvalue

/-- Of two coprime polynomials, the one with fewer powers of `x - a` does not vanish at `a`. -/
lemma multiplicityAt_eq_zero_of_mul_le_mul (h : IsCoprime f g) (hk : k ≠ 0)
    (hle : multiplicityAt a (k * f) ≤ multiplicityAt a (k * g)) : multiplicityAt a f = 0 := by
  rcases multiplicityAt_eq_zero_or_of_isCoprime h a with hf | hg
  · exact hf
  · rw [multiplicityAt_mul, multiplicityAt_mul, hg,
      ENat.add_le_add_iff_left (multiplicityAt_ne_top hk)] at hle
    exact nonpos_iff_eq_zero.mp hle

/-- Cancelling a common factor leaves the difference of the multiplicities. -/
lemma multiplicityAt_mul_eq_add (h : IsCoprime f g) (hk : k ≠ 0)
    (hle : multiplicityAt a (k * f) ≤ multiplicityAt a (k * g)) :
    multiplicityAt a (k * g) = multiplicityAt a (k * f) + multiplicityAt a g := by
  rw [multiplicityAt_mul, multiplicityAt_mul, multiplicityAt_eq_zero_of_mul_le_mul h hk hle,
    add_zero]

/-- After a common factor is cancelled, the polynomial with the greater multiplicity has the
root. -/
lemma eval_eq_zero_iff_multiplicityAt_mul_lt (h : IsCoprime f g) (hk : k ≠ 0) :
    g.eval a = 0 ↔ multiplicityAt a (k * f) < multiplicityAt a (k * g) := by
  rw [multiplicityAt_mul, multiplicityAt_mul, ENat.add_lt_add_iff_left (multiplicityAt_ne_top hk)]
  refine ⟨fun hg => ?_, eval_eq_zero_of_multiplicityAt_lt⟩
  have hg0 := multiplicityAt_ne_zero_iff.mpr hg
  rw [(multiplicityAt_eq_zero_or_of_isCoprime h a).resolve_right hg0]
  exact pos_iff_ne_zero.mpr hg0

end ExactAlgebra
