import ExactAlgebra.Proofs.Value.Operand
import ExactAlgebra.Value.Operators

/-!
Operators on operands of mixed types agree with the operators on rational functions.

* **Outcomes.** `IsOutcome` says that a computation has a given value in `ℚ(X)`, or is refused as
  a division by zero when there is none. Two computations of one value have equal results
  (`IsOutcome.same`).
* **Operators.** `Arithmetic.Computes` states of every path of an operator, on two polynomials,
  on a polynomial and a number in either order, and on two functions, that it computes one
  operation of `ℚ(X)`. The operator then computes it on all operands (`Computes.apply`), and the
  four operators are cases of this (`addition_computes` to `division_computes`).

Main statement: `mixed_operands`.
-/

open Polynomial

namespace ExactAlgebra

namespace Value

open RationalFunction

/-! ### Outcomes -/

/-- The computation returns a polynomial or a rational function that stands for the given element
of `ℚ(X)`; where none is given, it is refused as a division by zero. -/
def IsOutcome (x : Except Error Value) : Option (RatFunc ℚ) → Prop
  | some f => ∃ s, x = .ok (ofQuotient s) ∧ (quotientFunction s).toRatFunc = f
  | none => ∃ e, x = .error e ∧ e.kind = .divisionByZero

/-- Two outcomes of one element are equal values. -/
lemma IsOutcome.same {x y : Except Error Value} {f : RatFunc ℚ} (hx : IsOutcome x (some f))
    (hy : IsOutcome y (some f)) : ∃ v w, x = .ok v ∧ y = .ok w ∧ v.same w = true := by
  obtain ⟨s, hs, hf⟩ := hx
  obtain ⟨t, ht, hf'⟩ := hy
  exact ⟨_, _, hs, ht, (same_ofQuotient_iff s t).mpr (hf.trans hf'.symm)⟩

/-- The result is the given polynomial. -/
lemma isOutcome_polynomial (p : Polynomial) :
    IsOutcome (.ok (polynomial p)) (some (algebraMap ℚ[X] (RatFunc ℚ) p.toPoly)) :=
  ⟨.inl p, rfl, toRatFunc_ofPolynomial p⟩

/-- The result is the given rational function. -/
lemma isOutcome_function (r : RationalFunction) :
    IsOutcome (.ok (function r)) (some r.toRatFunc) :=
  ⟨.inr r, rfl, rfl⟩

/-! ### Operators -/

variable {op : Arithmetic} {f : RatFunc ℚ → RatFunc ℚ → Option (RatFunc ℚ)}

/-- Every path of an operator computes the given operation of `ℚ(X)`. An operator that takes a
function on the right as its first operand does not depend on the order. -/
structure Arithmetic.Computes (op : Arithmetic) (f : RatFunc ℚ → RatFunc ℚ → Option (RatFunc ℚ)) :
    Prop where
  polynomials : ∀ p q, IsOutcome (op.onPolynomials p q)
    (f (algebraMap ℚ[X] _ p.toPoly) (algebraMap ℚ[X] _ q.toPoly))
  byNumber : ∀ p c, IsOutcome (op.byNumber p c)
    (f (algebraMap ℚ[X] _ p.toPoly) (algebraMap ℚ[X] _ (C c)))
  ofNumber : ∀ c q, IsOutcome (op.ofNumber c q)
    (f (algebraMap ℚ[X] _ (C c)) (algebraMap ℚ[X] _ q.toPoly))
  functions : ∀ r s, IsOutcome (op.onFunctions r s) (f r.toRatFunc s.toRatFunc)
  commutes : op.swapsFunctions = true → ∀ x y, f x y = f y x

/-- A function on the right is read after the operand on the left, perhaps in the other order. -/
lemma Arithmetic.Computes.function_right (h : op.Computes f) (r s : RationalFunction) :
    IsOutcome (if op.swapsFunctions then op.onFunctions s r else op.onFunctions r s)
      (f r.toRatFunc s.toRatFunc) := by
  split
  · next hswap =>
      rw [h.commutes hswap]
      exact h.functions s r
  · exact h.functions r s

/-- A number beside a polynomial is combined with it directly, on either side. -/
lemma apply_polynomial_number {v : Value} {c : ℚ} (hv : v.toRational? = .ok c) (p : Polynomial) :
    op.apply (polynomial p) v = op.byNumber p c := by
  cases v <;> simp_all [Arithmetic.apply, withNumber, toRational?]

lemma apply_number_polynomial {v : Value} {c : ℚ} (hv : v.toRational? = .ok c) (q : Polynomial) :
    op.apply v (polynomial q) = op.ofNumber c q := by
  cases v <;> simp_all [Arithmetic.apply, withNumber, toRational?]

/-- A number beside a function is taken as a constant function. -/
lemma apply_number_function {v : Value} {c : ℚ} (hv : v.toRational? = .ok c)
    (s : RationalFunction) :
    op.apply v (function s) =
      if op.swapsFunctions then op.onFunctions s (const c) else op.onFunctions (const c) s := by
  have hf := asFunction?_of_toRational? hv
  cases v <;> simp_all [Arithmetic.apply, withFunction, toRational?]

/-- What stands beside a function is taken as a function. -/
lemma apply_function_operand (r : RationalFunction) (b : Operand) :
    op.apply (function r) b.value = op.onFunctions r b.toFunction := by
  rw [Arithmetic.apply, withFunction, asFunction?_operand]

/-- An operator computes its operation on all operands of which one is no number. -/
theorem Arithmetic.Computes.apply (h : op.Computes f) {a b : Operand}
    (hab : ¬(a.isNumber = true ∧ b.isNumber = true)) :
    IsOutcome (op.apply a.value b.value) (f a.toFunction.toRatFunc b.toFunction.toRatFunc) := by
  -- one case for every path of the operator; a function on either side leads to functions
  cases a with
  | number v c hv =>
      cases b with
      | number w d hw => exact absurd ⟨rfl, rfl⟩ hab
      | polynomial q =>
          rw [Operand.value, Operand.value, apply_number_polynomial hv, Operand.toFunction,
            Operand.toFunction, toRatFunc_const, toRatFunc_ofPolynomial]
          exact h.ofNumber c q
      | function s =>
          rw [Operand.value, Operand.value, apply_number_function hv]
          exact h.function_right (const c) s
  | polynomial p =>
      cases b with
      | number w d hw =>
          rw [Operand.value, Operand.value, apply_polynomial_number hw, Operand.toFunction,
            Operand.toFunction, toRatFunc_const, toRatFunc_ofPolynomial]
          exact h.byNumber p d
      | polynomial q =>
          rw [Operand.toFunction, Operand.toFunction, toRatFunc_ofPolynomial,
            toRatFunc_ofPolynomial]
          exact h.polynomials p q
      | function s => exact h.function_right (ofPolynomial p) s
  | function r =>
      rw [Operand.value, apply_function_operand]
      exact h.functions r b.toFunction

/-- Addition computes the sum, whichever path it takes. -/
lemma addition_computes : addition.Computes fun x y => some (x + y) where
  polynomials p q := by
    rw [← map_add, ← Polynomial.toPoly_add]
    exact isOutcome_polynomial _
  byNumber p c := by
    rw [← map_add, ← Polynomial.toPoly_const c p.label, ← Polynomial.toPoly_add]
    exact isOutcome_polynomial _
  ofNumber c q := by
    rw [← map_add, add_comm, ← Polynomial.toPoly_const c q.label, ← Polynomial.toPoly_add]
    exact isOutcome_polynomial _
  functions r s := by
    rw [← toRatFunc_add]
    exact isOutcome_function _
  commutes _ x y := by rw [add_comm]

lemma subtraction_computes : subtraction.Computes fun x y => some (x - y) where
  polynomials p q := by
    rw [← map_sub, ← Polynomial.toPoly_sub]
    exact isOutcome_polynomial _
  byNumber p c := by
    rw [← map_sub, ← Polynomial.toPoly_const c p.label, ← Polynomial.toPoly_sub]
    exact isOutcome_polynomial _
  ofNumber c q := by
    rw [← map_sub, ← Polynomial.toPoly_const c q.label, ← Polynomial.toPoly_sub]
    exact isOutcome_polynomial _
  functions r s := by
    rw [← toRatFunc_sub]
    exact isOutcome_function _
  commutes hswap := nomatch hswap

lemma multiplication_computes : multiplication.Computes fun x y => some (x * y) where
  polynomials p q := by
    rw [← map_mul, ← Polynomial.toPoly_mul]
    exact isOutcome_polynomial _
  byNumber p c := by
    rw [← map_mul, mul_comm, ← Polynomial.toPoly_scale]
    exact isOutcome_polynomial _
  ofNumber c q := by
    rw [← map_mul, ← Polynomial.toPoly_scale]
    exact isOutcome_polynomial _
  functions r s := by
    rw [← toRatFunc_mul]
    exact isOutcome_function _
  commutes _ x y := by rw [mul_comm]

/-! ### Division -/

/-- The quotient of two elements of `ℚ(X)`, which zero does not divide. -/
noncomputable def quotient? (x y : RatFunc ℚ) : Option (RatFunc ℚ) :=
  open Classical in if y = 0 then none else some (x / y)

lemma quotient?_zero (x : RatFunc ℚ) : quotient? x 0 = none := if_pos rfl

lemma quotient?_of_ne_zero (x : RatFunc ℚ) {y : RatFunc ℚ} (hy : y ≠ 0) :
    quotient? x y = some (x / y) := if_neg hy

/-- A quotient of two polynomials is refused for the denominator zero alone. -/
lemma isOutcome_ofPolynomials? (n d : Polynomial) :
    IsOutcome (do .ok (function (← ofPolynomials? n d)))
      (quotient? (algebraMap ℚ[X] _ n.toPoly) (algebraMap ℚ[X] _ d.toPoly)) := by
  cases hd : d.isZero with
  | true =>
      rw [Polynomial.toPoly_eq_zero_iff.mpr hd, map_zero, quotient?_zero, ofPolynomials?,
        dif_neg (by simp [hd])]
      exact ⟨_, rfl, rfl⟩
  | false =>
      rw [quotient?_of_ne_zero _ (RatFunc.algebraMap_ne_zero
        (Polynomial.toPoly_ne_zero_iff.mpr hd)), ofPolynomials?, dif_pos hd]
      exact isOutcome_function ⟨n, d, hd⟩

/-- A polynomial over a number is scaled, and the number zero is refused. -/
lemma isOutcome_scaleDown? (p : Polynomial) (c : ℚ) :
    IsOutcome (scaleDown? p c)
      (quotient? (algebraMap ℚ[X] _ p.toPoly) (algebraMap ℚ[X] _ (C c))) := by
  by_cases hc : c = 0
  · rw [hc, C_0, map_zero, quotient?_zero, scaleDown?, if_pos rfl]
    exact ⟨_, rfl, rfl⟩
  · have hC : algebraMap ℚ[X] (RatFunc ℚ) (C c) ≠ 0 := RatFunc.algebraMap_ne_zero (C_ne_zero.mpr hc)
    have hval : algebraMap ℚ[X] (RatFunc ℚ) p.toPoly / algebraMap ℚ[X] (RatFunc ℚ) (C c)
        = algebraMap ℚ[X] (RatFunc ℚ) (p.scale (1 / c)).toPoly := by
      rw [div_eq_iff hC, Polynomial.toPoly_scale, ← map_mul, mul_right_comm, ← C_mul,
        one_div_mul_cancel hc, C_1, one_mul]
    rw [quotient?_of_ne_zero _ hC, scaleDown?, if_neg hc, hval]
    exact isOutcome_polynomial _

/-- A division of functions has the quotient as its outcome, or is refused. -/
lemma isOutcome_div? (r s : RationalFunction) :
    IsOutcome (do .ok (function (← r.div? s))) (quotient? r.toRatFunc s.toRatFunc) := by
  cases hs : s.isZero with
  | true =>
      rw [toRatFunc_eq_zero_iff.mpr hs, quotient?_zero, div?_eq_error_iff.mpr ⟨hs, rfl⟩]
      exact ⟨_, rfl, rfl⟩
  | false =>
      obtain ⟨q, hq, hval⟩ := div?_eq_ok r hs
      rw [quotient?_of_ne_zero _ (toRatFunc_ne_zero_iff.mpr hs), hq, ← hval]
      exact isOutcome_function q

/-- Division computes the quotient, whichever path it takes. -/
lemma division_computes : division.Computes quotient? where
  polynomials := isOutcome_ofPolynomials?
  byNumber := isOutcome_scaleDown?
  ofNumber c q := by
    rw [← Polynomial.toPoly_const c q.label]
    exact isOutcome_ofPolynomials? _ q
  functions := isOutcome_div?
  commutes hswap := nomatch hswap

/-! ### All operands -/

/-- On rational functions and on what they are read from, an operator has equal results. -/
lemma Arithmetic.Computes.same (h : op.Computes f) {a b : Operand}
    (hab : ¬(a.isNumber = true ∧ b.isNumber = true)) {y : RatFunc ℚ}
    (hy : f a.toFunction.toRatFunc b.toFunction.toRatFunc = some y) :
    ∃ v w, op.apply a.value b.value = .ok v
      ∧ op.apply (function a.toFunction) (function b.toFunction) = .ok w ∧ v.same w = true := by
  have hmixed := h.apply hab
  have hfunctions := h.functions a.toFunction b.toFunction
  rw [hy] at hmixed hfunctions
  exact hmixed.same hfunctions

/-- **Operators on mixed operands.** Let each of two operands be a number, a polynomial or a
rational function, and not both a number. Both are read as rational functions. Sum, difference
and product return, and the result is equal to the one computed on these rational functions
alone. So does the quotient by an operand that is not zero; it is refused, as a division by
zero, exactly when the second operand is zero. -/
theorem mixed_operands (a b : Operand) (hab : ¬(a.isNumber = true ∧ b.isNumber = true)) :
    (a.value.asFunction? = .ok a.toFunction ∧ b.value.asFunction? = .ok b.toFunction)
    ∧ (∃ v w, add a.value b.value = .ok v
      ∧ add (function a.toFunction) (function b.toFunction) = .ok w ∧ v.same w = true)
    ∧ (∃ v w, sub a.value b.value = .ok v
      ∧ sub (function a.toFunction) (function b.toFunction) = .ok w ∧ v.same w = true)
    ∧ (∃ v w, mul a.value b.value = .ok v
      ∧ mul (function a.toFunction) (function b.toFunction) = .ok w ∧ v.same w = true)
    ∧ (b.isZero = false → ∃ v w, div a.value b.value = .ok v
      ∧ div (function a.toFunction) (function b.toFunction) = .ok w ∧ v.same w = true)
    ∧ ((∃ e, div a.value b.value = .error e ∧ e.kind = .divisionByZero) ↔ b.isZero = true) := by
  have hquotient (hb : b.isZero = false) : ∃ v w, div a.value b.value = .ok v
      ∧ div (function a.toFunction) (function b.toFunction) = .ok w ∧ v.same w = true := by
    have hne : b.toFunction.toRatFunc ≠ 0 := by
      rw [Ne, ← Operand.isZero_iff, hb]
      exact Bool.false_ne_true
    exact division_computes.same hab (quotient?_of_ne_zero _ hne)
  refine ⟨⟨asFunction?_operand a, asFunction?_operand b⟩, addition_computes.same hab rfl,
    subtraction_computes.same hab rfl, multiplication_computes.same hab rfl, hquotient, ?_, ?_⟩
  · rintro ⟨e, he, -⟩
    by_contra hb
    obtain ⟨v, -, hv, -⟩ := hquotient (Bool.not_eq_true _ ▸ hb)
    rw [he] at hv
    cases hv
  · intro hb
    have h := division_computes.apply hab
    rwa [(Operand.isZero_iff b).mp hb, quotient?_zero] at h

/-- The numeral `-3/4` beside the polynomial `1 + 2t`, and the polynomial beside the numeral
`0.0`. -/
theorem mixed_operands_numeral :
    let p : Polynomial := .ofList [1, 2] (some "t")
    (∃ v w, sub (text " -3/4") (polynomial p) = .ok v
      ∧ sub (function (const (-3 / 4))) (function (ofPolynomial p)) = .ok w ∧ v.same w = true)
    ∧ (∃ v w, div (text " -3/4") (polynomial p) = .ok v
      ∧ div (function (const (-3 / 4))) (function (ofPolynomial p)) = .ok w ∧ v.same w = true)
    ∧ ∃ e, div (polynomial p) (text "0.0") = .error e ∧ e.kind = .divisionByZero := by
  intro p
  have hread : (text " -3/4").toRational? = .ok (-3 / 4) := by decide +kernel
  have hzero : (text "0.0").toRational? = .ok 0 := by decide +kernel
  have hp : (Operand.polynomial p).isZero = false := by decide +kernel
  obtain ⟨-, -, hsub, -, hdiv, -⟩ :=
    mixed_operands (.number (text " -3/4") (-3 / 4) hread) (.polynomial p)
      (by simp [Operand.isNumber])
  obtain ⟨-, -, -, -, -, hrefused⟩ :=
    mixed_operands (.polynomial p) (.number (text "0.0") 0 hzero) (by simp [Operand.isNumber])
  exact ⟨hsub, hdiv hp, hrefused.mpr (by simp [Operand.isZero])⟩

end Value

end ExactAlgebra
