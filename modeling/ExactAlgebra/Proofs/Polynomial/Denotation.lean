import Mathlib.Algebra.Polynomial.Derivative
import Mathlib.Algebra.Polynomial.FieldDivision
import Mathlib.Tactic.LinearCombination
import Mathlib.Tactic.Ring
import ExactAlgebra.Polynomial.Calculus
import ExactAlgebra.Polynomial.Division
import ExactAlgebra.Polynomial.Synthetic

/-!
The denotation of polynomials in `ℚ[X]`.

* **Coefficient lists.** `Coefficients.toPoly` reads a list as a polynomial, and every
  operation on lists is the operation of the ring: `toPoly_add`, `toPoly_mul`,
  `eval_toPoly`, `toPoly_timesIndex`. The running values of Horner's method are a quotient
  by `x - c` and a remainder (`toPoly_eq_runningValues`), and long division satisfies the
  division identity (`toPoly_divMod`).
* **Canonical lists.** Trimming keeps the denotation, and a trimmed list is determined by
  it (`toPoly_injOn`); its length is the degree plus one (`length_eq_natDegree`).
* **Polynomials.** `Polynomial.toPoly` forgets the label. It is injective up to labels
  (`toPoly_inj`, `ext_toPoly`), and degree, leading coefficient and value are those of `ℚ[X]`.
-/

open Polynomial

namespace ExactAlgebra

/-! ### Coefficient lists -/

namespace Coefficients

/-- The polynomial `c₀ + c₁ x + …` of a coefficient list. -/
noncomputable def toPoly : List Rat → ℚ[X]
  | [] => 0
  | a :: as => C a + X * toPoly as

@[simp] lemma toPoly_nil : toPoly [] = 0 := rfl

@[simp] lemma toPoly_cons (a : Rat) (as : List Rat) :
    toPoly (a :: as) = C a + X * toPoly as := rfl

/-- The places of a list are the coefficients, and there are zeros beyond its end. -/
lemma coeff_toPoly (as : List Rat) (n : ℕ) : (toPoly as).coeff n = as.getD n 0 := by
  induction as generalizing n with
  | nil => simp
  | cons a as ih =>
      cases n with
      | zero => simp
      | succ n => simp [coeff_C_succ, ih]

/-- Zeros at the end of a list do not count. -/
@[simp] lemma toPoly_trim (as : List Rat) : toPoly (trim as) = toPoly as := by
  induction as with
  | nil => rfl
  | cons a as ih =>
      rw [trim]
      split
      · next h =>
          rw [h, toPoly_nil] at ih
          by_cases ha : a = 0 <;> simp [ha, ← ih]
      · next d ds h => rw [toPoly_cons, ← h, ih, toPoly_cons]

/-- The sum of lists of different lengths is that of the ring, since the longer one keeps its
end. -/
@[simp] lemma toPoly_add (as bs : List Rat) : toPoly (add as bs) = toPoly as + toPoly bs := by
  ext n
  rw [coeff_toPoly, getD_add, coeff_add, coeff_toPoly, coeff_toPoly]

@[simp] lemma toPoly_neg (as : List Rat) : toPoly (neg as) = -toPoly as := by
  ext n
  rw [coeff_toPoly, getD_neg, coeff_neg, coeff_toPoly]

@[simp] lemma toPoly_sub (as bs : List Rat) : toPoly (sub as bs) = toPoly as - toPoly bs := by
  rw [sub, toPoly_add, toPoly_neg, sub_eq_add_neg]

@[simp] lemma toPoly_scale (c : Rat) (as : List Rat) : toPoly (scale c as) = C c * toPoly as := by
  ext n
  rw [coeff_toPoly, getD_scale, coeff_C_mul, coeff_toPoly, mul_comm]

/-- The product of lists: the one is scaled and shifted by the places of the other. -/
@[simp] lemma toPoly_mul (as bs : List Rat) : toPoly (mul as bs) = toPoly as * toPoly bs := by
  induction as with
  | nil => simp [mul]
  | cons a as ih =>
      simp only [mul, toPoly_add, toPoly_scale, toPoly_cons, ih, C_0]; ring

/-- What is appended stands at higher powers. -/
@[simp] lemma toPoly_append (as bs : List Rat) :
    toPoly (as ++ bs) = toPoly as + X ^ as.length * toPoly bs := by
  induction as with
  | nil => simp
  | cons a as ih =>
      simp only [List.cons_append, toPoly_cons, ih, List.length_cons]; ring

/-- Zeros in front are a power of the variable. -/
lemma toPoly_replicate_append (n : ℕ) (as : List Rat) :
    toPoly (List.replicate n 0 ++ as) = X ^ n * toPoly as := by
  induction n with
  | zero => simp
  | succ n ih => rw [List.replicate_succ, List.cons_append, toPoly_cons, ih, C_0]; ring

/-- The sum of the monomials, each with its place, is the polynomial. -/
lemma sum_zipIdx (as : List Rat) (k : ℕ) :
    ((as.zipIdx k).map fun t => C t.1 * X ^ t.2).sum = X ^ k * toPoly as := by
  induction as generalizing k with
  | nil => simp
  | cons a as ih =>
      rw [List.zipIdx_cons, List.map_cons, List.sum_cons, ih, toPoly_cons]
      ring

/-- Horner's method computes the value. -/
lemma eval_toPoly (x : Rat) (as : List Rat) : (toPoly as).eval x = eval x as := by
  induction as with
  | nil => simp [eval]
  | cons a as ih =>
      rw [toPoly_cons, eval_add, eval_C, eval_mul, eval_X, ih]
      simp only [eval, List.foldr_cons]; ring

/-- The coefficients times their indices from `k` on: the derivative of `x ^ k p`, without
the factor `x ^ (k - 1)`. -/
lemma toPoly_timesIndex (k : ℕ) (as : List Rat) :
    toPoly (timesIndex k as) = C (k : ℚ) * toPoly as + X * (toPoly as).derivative := by
  induction as generalizing k with
  | nil => simp [timesIndex]
  | cons a as ih =>
      simp only [timesIndex, toPoly_cons, ih, Nat.cast_succ, C_add, C_mul, derivative_add,
        derivative_C, derivative_mul, derivative_X, C_1]
      ring

/-- The derivative of a list is that of the ring. -/
@[simp] lemma toPoly_derivative (as : List Rat) :
    toPoly (derivative as) = (toPoly as).derivative := by
  cases as with
  | nil => simp [derivative, timesIndex]
  | cons a as =>
      simp [derivative, toPoly_timesIndex, derivative_mul]

/-- Taken several times, the derivative is the iterated one. The computation stops early at the
empty list, whose derivatives are all zero. -/
@[simp] lemma toPoly_iteratedDerivative (n : ℕ) (as : List Rat) :
    toPoly (iteratedDerivative n as) = (fun f : ℚ[X] => f.derivative)^[n] (toPoly as) := by
  induction n generalizing as with
  | zero => rfl
  | succ n ih =>
      cases as with
      | nil => rw [iteratedDerivative, toPoly_nil, iterate_derivative_zero]
      | cons a as => rw [iteratedDerivative, ih, toPoly_derivative, Function.iterate_succ_apply]

/-! ### Division of lists -/

/-- The running values of Horner's method: the head is the remainder of the division by
`x - c` and the tail is the quotient. -/
lemma toPoly_eq_runningValues (c : Rat) (as : List Rat) :
    toPoly as = (X - C c) * toPoly (runningValues c as).tail
      + C ((runningValues c as).headD 0) := by
  induction as with
  | nil => simp [runningValues]
  | cons a as ih =>
      rw [runningValues, toPoly_cons]
      cases h : runningValues c as with
      | nil => rw [ih, h]; simp
      | cons v vs =>
          rw [ih, h]
          simp only [List.tail_cons, List.headD_cons, toPoly_cons, C_add, C_mul]
          ring

/-- The multiple of the divisor that cancels the highest place of a list no longer than the
divisor leaves nothing from that place on. -/
lemma getD_sub_cancel {d r : List Rat} (hd : d ≠ []) (hd' : Trimmed d)
    (hr : r.length ≤ d.length) {n : ℕ} (hn : d.length - 1 ≤ n) :
    (sub r (scale (r.getD (d.length - 1) 0 / d.getLastD 0) d)).getD n 0 = 0 := by
  have hlast : d.getD (d.length - 1) 0 = d.getLastD 0 := by
    rw [List.getD_eq_getElem?_getD, ← List.getLast?_eq_getElem?, List.getLastD_eq_getLast?]
  rw [getD_sub, getD_scale]
  rcases eq_or_lt_of_le hn with rfl | hlt
  · rw [hlast, mul_div_cancel₀ _ (getLastD_ne_zero hd hd'), sub_self]
  · -- there is no place beyond the highest one
    rw [getD_of_length_le (by omega), getD_of_length_le (by omega), zero_mul, sub_zero]

/-- Places that hold zeros may be cut off. -/
lemma toPoly_take {as : List Rat} {n : ℕ} (h : ∀ i, n ≤ i → as.getD i 0 = 0) :
    toPoly (as.take n) = toPoly as := by
  ext i
  rw [coeff_toPoly, coeff_toPoly, getD_take h]

/-- One step of long division subtracts the multiple of the divisor that cancels the highest
place. -/
lemma toPoly_take_cancel {d r : List Rat} (hd : d ≠ []) (hd' : Trimmed d)
    (hr : r.length ≤ d.length) :
    toPoly ((sub r (scale (r.getD (d.length - 1) 0 / d.getLastD 0) d)).take (d.length - 1))
      = toPoly r - C (r.getD (d.length - 1) 0 / d.getLastD 0) * toPoly d := by
  rw [toPoly_take fun i => getD_sub_cancel hd hd' hr, toPoly_sub, toPoly_scale]

/-- The division identity. -/
lemma toPoly_divMod {d : List Rat} (hd : d ≠ []) (hd' : Trimmed d) (as : List Rat) :
    toPoly as = toPoly (divMod d as).1 * toPoly d + toPoly (divMod d as).2 := by
  induction as with
  | nil => simp [divMod]
  | cons a as ih =>
      have hlen : (a :: (divMod d as).2).length ≤ d.length := length_remainder_lt hd as
      simp only [divMod]
      rw [toPoly_take_cancel hd hd' hlen, toPoly_cons, toPoly_cons, toPoly_cons]
      -- the step brings one more coefficient down: `X` times the identity so far
      linear_combination X * ih

/-! ### Canonical lists -/

/-- A list is longer than its degree. -/
lemma degree_toPoly_lt (as : List Rat) : (toPoly as).degree < as.length := by
  rw [degree_lt_iff_coeff_zero]
  intro n hn
  rw [coeff_toPoly, getD_of_length_le hn]

/-- The last place holds the coefficient that the length of the list allows. -/
lemma coeff_toPoly_last (as : List Rat) :
    (toPoly as).coeff (as.length - 1) = as.getLastD 0 := by
  rw [coeff_toPoly, List.getD_eq_getElem?_getD, ← List.getLast?_eq_getElem?,
    List.getLastD_eq_getLast?]

/-- A trimmed list is one longer than the degree. -/
lemma length_eq_natDegree {as : List Rat} (has : as ≠ []) (h : Trimmed as) :
    as.length = (toPoly as).natDegree + 1 := by
  have hpos : 0 < as.length := List.length_pos_iff.mpr has
  have hlast : (toPoly as).coeff (as.length - 1) ≠ 0 := by
    rw [coeff_toPoly_last as]; exact getLastD_ne_zero has h
  have hle := le_natDegree_of_ne_zero hlast
  have hne : toPoly as ≠ 0 := by
    intro h0; rw [h0] at hlast; simp at hlast
  have hlt := degree_toPoly_lt as
  rw [degree_eq_natDegree hne, Nat.cast_lt] at hlt
  omega

/-- Only the empty list is a trimmed list of zero. -/
lemma toPoly_eq_zero_iff {as : List Rat} (h : Trimmed as) : toPoly as = 0 ↔ as = [] := by
  refine ⟨fun h0 => ?_, fun h0 => by rw [h0, toPoly_nil]⟩
  by_contra has
  apply getLastD_ne_zero has h
  rw [← coeff_toPoly_last as, h0, coeff_zero]

/-- Two lists of one length and one polynomial are equal. -/
lemma eq_of_toPoly_eq {as bs : List Rat} (hlen : as.length = bs.length)
    (h : toPoly as = toPoly bs) : as = bs := by
  refine List.ext_getElem hlen fun n h₁ h₂ => ?_
  have hn : as.getD n 0 = bs.getD n 0 := by rw [← coeff_toPoly, ← coeff_toPoly, h]
  simpa [List.getD_eq_getElem?_getD, h₁, h₂] using hn

/-- Two trimmed lists of one polynomial are equal. -/
lemma toPoly_injOn {as bs : List Rat} (ha : Trimmed as) (hb : Trimmed bs)
    (h : toPoly as = toPoly bs) : as = bs := by
  have hlen : as.length = bs.length := by
    by_cases has : as = []
    · rw [has, toPoly_nil, eq_comm, toPoly_eq_zero_iff hb] at h
      rw [has, h]
    · have hbs : bs ≠ [] := fun h0 => by
        rw [h0, toPoly_nil, toPoly_eq_zero_iff ha] at h
        exact has h
      rw [length_eq_natDegree has ha, length_eq_natDegree hbs hb, h]
  exact eq_of_toPoly_eq hlen h

end Coefficients

/-! ### Polynomials -/

namespace Polynomial

/-- The element of `ℚ[X]` that a polynomial stands for, without its label. -/
noncomputable def toPoly (p : Polynomial) : ℚ[X] := Coefficients.toPoly p.ascending

@[simp] lemma toPoly_ofList (cs : List Rat) (label : Option String) :
    (ofList cs label).toPoly = Coefficients.toPoly cs := Coefficients.toPoly_trim cs

/-- The label is not part of the denotation. -/
@[simp] lemma toPoly_withLabel (p : Polynomial) (label : Option String) :
    (p.withLabel label).toPoly = p.toPoly := rfl

/-- A polynomial is determined by its denotation, up to the label. -/
lemma toPoly_inj {p q : Polynomial} : p.toPoly = q.toPoly ↔ p.ascending = q.ascending :=
  ⟨Coefficients.toPoly_injOn p.trimmed q.trimmed, fun h => by rw [toPoly, toPoly, h]⟩

/-- Polynomials are equal when they denote the same polynomial, so that labels do not count. -/
lemma beq_iff_toPoly {p q : Polynomial} : (p == q) = true ↔ p.toPoly = q.toPoly := by
  rw [beq_iff, toPoly_inj]

/-- Equal polynomials differ in their labels only. -/
lemma exists_eq_withLabel {p q : Polynomial} (h : p.toPoly = q.toPoly) :
    ∃ label, p = q.withLabel label := by
  obtain ⟨cs, label, hcs⟩ := p
  obtain ⟨ds, label', hds⟩ := q
  obtain rfl : cs = ds := toPoly_inj.mp h
  exact ⟨label, rfl⟩

/-- Polynomials with the same coefficients differ in their labels only. -/
lemma eq_withLabel_of_toPoly_eq {p q : Polynomial} (h : p.toPoly = q.toPoly) :
    p = q.withLabel p.label := by
  obtain ⟨label, rfl⟩ := exists_eq_withLabel h
  rfl

/-- A polynomial is determined by its denotation and its label. -/
lemma ext_toPoly {p q : Polynomial} (h : p.toPoly = q.toPoly) (hlabel : p.label = q.label) :
    p = q := by
  rw [eq_withLabel_of_toPoly_eq h, hlabel]
  rfl

lemma toPoly_ofList_coefficients (p : Polynomial) :
    Coefficients.toPoly p.coefficients = p.toPoly := by
  rw [← toPoly_ofList _ p.label, ofList_coefficients]

/-- The coefficients determine the denotation, and are determined by it. -/
lemma coefficients_eq_iff {p q : Polynomial} :
    p.coefficients = q.coefficients ↔ p.toPoly = q.toPoly := by
  refine ⟨fun h => ?_, fun h => ?_⟩
  · rw [← toPoly_ofList_coefficients, h, toPoly_ofList_coefficients]
  · rw [coefficients, coefficients, toPoly_inj.mp h]

/-- The polynomial zero is the one that denotes zero. -/
lemma toPoly_eq_zero_iff {p : Polynomial} : p.toPoly = 0 ↔ p.isZero = true := by
  rw [isZero_iff, toPoly, Coefficients.toPoly_eq_zero_iff p.trimmed]

lemma toPoly_ne_zero_iff {p : Polynomial} : p.toPoly ≠ 0 ↔ p.isZero = false := by
  rw [Ne, toPoly_eq_zero_iff, Bool.not_eq_true]

/-- The coefficient at an index is that of `ℚ[X]`, also beyond the degree. -/
lemma coefficient_eq (p : Polynomial) (n : ℕ) : p.coefficient n = p.toPoly.coeff n :=
  (Coefficients.coeff_toPoly _ _).symm

/-- The value at a point is that of `ℚ[X]`. -/
lemma eval_eq (p : Polynomial) (x : Rat) : p.eval x = p.toPoly.eval x :=
  (Coefficients.eval_toPoly x _).symm

/-! ### Degree and leading coefficient -/

/-- The list of a nonzero polynomial is as long as its degree allows. -/
lemma length_ascending {p : Polynomial} (hp : p.isZero = false) :
    p.ascending.length = p.toPoly.natDegree + 1 :=
  Coefficients.length_eq_natDegree (isZero_eq_false_iff.mp hp) p.trimmed

/-- The degree of a nonzero polynomial is its natural degree. -/
lemma degree_eq {p : Polynomial} (hp : p.isZero = false) : p.degree = p.toPoly.natDegree := by
  rw [degree, length_ascending hp]; push_cast; ring

/-- The degree of zero is `-1`. -/
lemma degree_zero_eq {p : Polynomial} (hp : p.isZero = true) : p.degree = -1 := by
  rw [degree, isZero_iff.mp hp]; simp

/-- A degree below one is that of a constant, which may be zero. -/
lemma degree_lt_one_iff {p : Polynomial} : p.degree < 1 ↔ p.toPoly.natDegree = 0 := by
  cases hp : p.isZero with
  | true => rw [degree_zero_eq hp, toPoly_eq_zero_iff.mpr hp]; simp
  | false => rw [degree_eq hp]; omega

/-- Degrees compare as those of `ℚ[X]`, where zero has the degree `⊥`. -/
lemma degree_lt_degree_iff {p q : Polynomial} (hq : q.isZero = false) :
    p.degree < q.degree ↔ p.toPoly.degree < q.toPoly.degree := by
  rw [degree_eq hq, degree_eq_natDegree (toPoly_ne_zero_iff.mpr hq)]
  cases hp : p.isZero with
  | true =>
      rw [degree_zero_eq hp, toPoly_eq_zero_iff.mpr hp, degree_zero]
      exact ⟨fun _ => WithBot.bot_lt_coe _, fun _ => by omega⟩
  | false =>
      rw [degree_eq hp, degree_eq_natDegree (toPoly_ne_zero_iff.mpr hp), Nat.cast_lt,
        Nat.cast_lt]

/-- The leading coefficient is that of `ℚ[X]`, and `0` for the polynomial zero. -/
lemma leadingCoefficient_eq (p : Polynomial) : p.leadingCoefficient = p.toPoly.leadingCoeff := by
  cases hp : p.isZero with
  | true => rw [leadingCoefficient, isZero_iff.mp hp, toPoly_eq_zero_iff.mpr hp]; simp
  | false =>
      have h := length_ascending hp
      rw [leadingCoefficient, ← Coefficients.coeff_toPoly_last, h, Nat.add_sub_cancel]
      rfl

/-- The coefficients of a nonzero polynomial end in the leading one. -/
lemma dropLast_append_leadingCoefficient {p : Polynomial} (hp : p.isZero = false) :
    p.ascending.dropLast ++ [p.leadingCoefficient] = p.ascending := by
  refine List.dropLast_append_getLast? _ ?_
  have hlast := List.getLast?_eq_some_getLast (isZero_eq_false_iff.mp hp)
  rw [Option.mem_def, leadingCoefficient, List.getLastD_eq_getLast?, hlast, Option.getD_some]

/-! ### Constants and operations -/

@[simp] lemma toPoly_zero (label : Option String) : (zero label).toPoly = 0 := rfl

@[simp] lemma toPoly_const (c : Rat) (label : Option String) : (const c label).toPoly = C c := by
  simp [const]

/-- A constant has one coefficient, the zero included. -/
lemma coefficients_const (c : Rat) (label : Option String) :
    (const c label).coefficients = [c] := by
  by_cases hc : c = 0 <;> simp [coefficients, const, ascending_ofList, Coefficients.trim, hc]

@[simp] lemma toPoly_one (label : Option String) : (one label).toPoly = 1 := by simp [one]

/-- The linear factor of a root. -/
@[simp] lemma toPoly_linear (r : Rat) (label : Option String) :
    (linear r label).toPoly = X - C r := by
  simp only [linear, toPoly_ofList, Coefficients.toPoly_cons, Coefficients.toPoly_nil, C_neg, C_1]
  ring

@[simp] lemma toPoly_add (p q : Polynomial) : (p + q).toPoly = p.toPoly + q.toPoly := by
  change (ofList (Coefficients.add _ _) _).toPoly = _
  rw [toPoly_ofList, Coefficients.toPoly_add, toPoly, toPoly]

@[simp] lemma toPoly_sub (p q : Polynomial) : (p - q).toPoly = p.toPoly - q.toPoly := by
  change (ofList (Coefficients.sub _ _) _).toPoly = _
  rw [toPoly_ofList, Coefficients.toPoly_sub, toPoly, toPoly]

@[simp] lemma toPoly_neg (p : Polynomial) : (-p).toPoly = -p.toPoly := by
  change (ofList (Coefficients.neg _) _).toPoly = _
  rw [toPoly_ofList, Coefficients.toPoly_neg, toPoly]

@[simp] lemma toPoly_mul (p q : Polynomial) : (p * q).toPoly = p.toPoly * q.toPoly := by
  change (ofList (Coefficients.mul _ _) _).toPoly = _
  rw [toPoly_ofList, Coefficients.toPoly_mul, toPoly, toPoly]

/-- Powers are multiplied up from one. -/
@[simp] lemma toPoly_pow (p : Polynomial) (n : ℕ) : (p ^ n).toPoly = p.toPoly ^ n := by
  induction n with
  | zero => exact toPoly_one p.label
  | succ n ih =>
      change (p ^ n * p).toPoly = _
      rw [toPoly_mul, ih, pow_succ]

@[simp] lemma toPoly_scale (p : Polynomial) (c : Rat) : (p.scale c).toPoly = C c * p.toPoly := by
  rw [scale, toPoly_ofList, Coefficients.toPoly_scale, toPoly]

/-- The derivative of an order is the iterated one. -/
lemma toPoly_derivative (p : Polynomial) (n : ℕ) :
    (p.derivative n).toPoly = (fun f : ℚ[X] => f.derivative)^[n] p.toPoly := by
  rw [derivative, toPoly_ofList, Coefficients.toPoly_iteratedDerivative, toPoly]

@[simp] lemma toPoly_derivative_one (p : Polynomial) :
    (p.derivative 1).toPoly = p.toPoly.derivative :=
  toPoly_derivative p 1

/-- Each root that is still to come adds its linear factor to the product so far. -/
lemma toPoly_foldl_linear (roots : List Rat) (label : Option String) (p : Polynomial) :
    (roots.foldl (fun p r => p * linear r label) p).toPoly
      = p.toPoly * (roots.map fun r => X - C r).prod := by
  induction roots generalizing p with
  | nil => rw [List.foldl_nil, List.map_nil, List.prod_nil, mul_one]
  | cons r roots ih =>
      rw [List.foldl_cons, ih, toPoly_mul, toPoly_linear, List.map_cons, List.prod_cons,
        mul_assoc]

/-- The polynomial of a list of roots is the product of their linear factors. -/
@[simp] lemma toPoly_ofRoots (roots : List Rat) (label : Option String) :
    (ofRoots roots label).toPoly = (roots.map fun r => X - C r).prod := by
  rw [ofRoots, toPoly_foldl_linear, toPoly_one, one_mul]

end Polynomial

end ExactAlgebra
