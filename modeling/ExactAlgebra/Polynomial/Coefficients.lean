/-!
Coefficient lists: the list `[c₀, c₁, …]` stands for the polynomial
`c₀ + c₁ x + …`, so that the constant term comes first and zeros at the end mean
nothing.

* `trim` drops the zeros at the end. `Trimmed` lists are the canonical ones.
* `add`, `neg`, `sub`, `scale`, `mul`, `eval`, `derivative`, `antiderivative` and
  `divMod` are the operations on coefficient lists, each by recursion on a list.
* `runningValues` are the values of Horner's method.
* `mul_ne_nil` and `trim_quotient_ne_nil`: products of nonzero polynomials and
  quotients by a polynomial of no higher degree are not zero.
-/

namespace ExactAlgebra.Coefficients

/-! ### Canonical lists -/

/-- A coefficient list without the zeros at its end. -/
def trim : List Rat → List Rat
  | [] => []
  | c :: cs =>
    match trim cs with
    | [] => if c = 0 then [] else [c]
    | d :: ds => c :: d :: ds

/-- A list whose last coefficient is not zero; the empty list is trimmed. -/
def Trimmed (cs : List Rat) : Prop := cs.getLast? ≠ some 0

instance (cs : List Rat) : Decidable (Trimmed cs) :=
  inferInstanceAs (Decidable (cs.getLast? ≠ some 0))

/-! ### Operations -/

/-- The sum, coefficient by coefficient. -/
def add : List Rat → List Rat → List Rat
  | [], bs => bs
  | a :: as, [] => a :: as
  | a :: as, b :: bs => (a + b) :: add as bs

/-- The negative. -/
def neg (as : List Rat) : List Rat := as.map fun a => -a

/-- The difference. -/
def sub (as bs : List Rat) : List Rat := add as (neg bs)

/-- The multiple by a number. -/
def scale (c : Rat) (as : List Rat) : List Rat := as.map fun a => a * c

/-- The product: `(a + x p) q = a q + x (p q)`. -/
def mul : List Rat → List Rat → List Rat
  | [], _ => []
  | a :: as, bs => add (scale a bs) (0 :: mul as bs)

/-- The value at a point, by Horner's method from the highest coefficient down. -/
def eval (x : Rat) (as : List Rat) : Rat := as.foldr (fun a acc => acc * x + a) 0

/-- The values of Horner's method, the last one first: the head is the value of the
polynomial, and the tail are the coefficients of its quotient by `x - c`. -/
def runningValues (c : Rat) : List Rat → List Rat
  | [] => []
  | a :: as =>
    match runningValues c as with
    | [] => [a]
    | v :: vs => (v * c + a) :: v :: vs

/-- The coefficients times `k, k + 1, …`. -/
def timesIndex (k : Nat) : List Rat → List Rat
  | [] => []
  | a :: as => a * (k : Rat) :: timesIndex (k + 1) as

/-- The coefficients divided by `k, k + 1, …`. -/
def overIndex (k : Nat) : List Rat → List Rat
  | [] => []
  | a :: as => a / (k : Rat) :: overIndex (k + 1) as

/-- The derivative. -/
def derivative (as : List Rat) : List Rat := timesIndex 1 as.tail

/-- The derivative taken several times; it stops when nothing is left. -/
def iteratedDerivative : Nat → List Rat → List Rat
  | 0, as => as
  | _ + 1, [] => []
  | n + 1, a :: as => iteratedDerivative n (derivative (a :: as))

/-- The antiderivative with the value `c` at zero. -/
def antiderivative (c : Rat) (as : List Rat) : List Rat := c :: overIndex 1 as

/-- Long division by `d`: quotient and remainder. The dividend is consumed from its
highest coefficient down; each step brings one coefficient down to the remainder and
subtracts the multiple of the divisor that cancels the highest place. -/
def divMod (d : List Rat) : List Rat → List Rat × List Rat
  | [] => ([], [])
  | c :: cs =>
    let (q, r) := divMod d cs
    let f := (c :: r).getD (d.length - 1) 0 / d.getLastD 0
    (f :: q, (sub (c :: r) (scale f d)).take (d.length - 1))

/-! ### Trimming -/

/-- What is trimmed ends in no zero. -/
theorem trim_trimmed (cs : List Rat) : Trimmed (trim cs) := by
  induction cs with
  | nil => simp [Trimmed, trim]
  | cons c cs ih =>
    rw [trim]
    split
    · split <;> simp_all [Trimmed]
    · rename_i d ds h
      rw [h] at ih
      simpa [Trimmed, List.getLast?_cons_cons] using ih

/-- A list that ends in no zero is left as it is. -/
theorem trim_eq_self {cs : List Rat} (h : Trimmed cs) : trim cs = cs := by
  induction cs with
  | nil => rfl
  | cons c cs ih =>
    cases cs with
    | nil => simp_all [Trimmed, trim]
    | cons d ds =>
      have hd : Trimmed (d :: ds) := by simpa [Trimmed, List.getLast?_cons_cons] using h
      rw [trim, ih hd]

theorem length_trim_le (cs : List Rat) : (trim cs).length ≤ cs.length := by
  induction cs with
  | nil => simp [trim]
  | cons c cs ih =>
    rw [trim]
    split
    · split <;> simp
    · rename_i d ds h
      rw [h] at ih
      simpa using ih

/-- Nothing is left of zeros only. -/
theorem trim_eq_nil_iff {cs : List Rat} : trim cs = [] ↔ ∀ c ∈ cs, c = 0 := by
  induction cs with
  | nil => simp [trim]
  | cons c cs ih =>
    rw [trim]
    split
    · rename_i h
      have hcs := ih.1 h
      simp only [List.mem_cons, forall_eq_or_imp]
      by_cases hc : c = 0
      · simpa [hc] using hcs
      · simp [hc]
    · rename_i d ds h
      have : ¬∀ c ∈ cs, c = 0 := fun hc => by simp [ih.2 hc] at h
      simp_all

/-! ### Lengths -/

theorem length_scale (c : Rat) (as : List Rat) : (scale c as).length = as.length := by
  simp [scale]

/-- A sum is as long as the longer summand. -/
theorem length_add (as bs : List Rat) : (add as bs).length = max as.length bs.length := by
  induction as generalizing bs with
  | nil => simp [add]
  | cons a as ih =>
    cases bs with
    | nil => simp [add]
    | cons b bs => simp only [add, List.length_cons, ih]; omega

/-! ### The coefficients place by place -/

/-- Beyond the list there are zeros. -/
theorem getD_of_length_le {as : List Rat} {i : Nat} (h : as.length ≤ i) : as.getD i 0 = 0 := by
  rw [List.getD_eq_getElem?_getD, List.getElem?_eq_none h, Option.getD_none]

/-- The shorter summand counts as continued by zeros. -/
theorem getD_add (as bs : List Rat) (i : Nat) :
    (add as bs).getD i 0 = as.getD i 0 + bs.getD i 0 := by
  induction as generalizing bs i with
  | nil => rw [add, List.getD_nil, Rat.zero_add]
  | cons a as ih =>
    cases bs with
    | nil => rw [add, List.getD_nil, Rat.add_zero]
    | cons b bs =>
      cases i with
      | zero => rfl
      | succ i => exact ih bs i

theorem getD_scale (c : Rat) (as : List Rat) (i : Nat) :
    (scale c as).getD i 0 = as.getD i 0 * c := by
  induction as generalizing i with
  | nil => exact (Rat.zero_mul c).symm
  | cons a as ih =>
    cases i with
    | zero => rfl
    | succ i => exact ih i

theorem getD_neg (as : List Rat) (i : Nat) : (neg as).getD i 0 = -as.getD i 0 := by
  induction as generalizing i with
  | nil => exact Rat.neg_zero.symm
  | cons a as ih =>
    cases i with
    | zero => rfl
    | succ i => exact ih i

theorem getD_sub (as bs : List Rat) (i : Nat) :
    (sub as bs).getD i 0 = as.getD i 0 - bs.getD i 0 := by
  rw [sub, getD_add, getD_neg, Rat.sub_eq_add_neg]

/-- Places that hold zeros may be cut off. -/
theorem getD_take {as : List Rat} {n : Nat} (h : ∀ i, n ≤ i → as.getD i 0 = 0) (i : Nat) :
    (as.take n).getD i 0 = as.getD i 0 := by
  by_cases hi : i < n
  · rw [List.getD_eq_getElem?_getD, List.getElem?_take_of_lt hi, ← List.getD_eq_getElem?_getD]
  · have hlen : (as.take n).length ≤ i :=
      Nat.le_trans (List.length_take_le n as) (Nat.le_of_not_lt hi)
    rw [h i (Nat.le_of_not_lt hi), getD_of_length_le hlen]

/-! ### Last coefficients -/

/-- A nonzero polynomial has a leading coefficient other than zero. -/
theorem getLastD_ne_zero {d : List Rat} (hd : d ≠ []) (hd' : Trimmed d) : d.getLastD 0 ≠ 0 := by
  intro h
  apply hd'
  rw [List.getLastD_eq_getLast?, List.getLast?_eq_some_getLast hd] at h
  rw [List.getLast?_eq_some_getLast hd]
  simpa using h

/-- The longer summand decides the last coefficient. -/
theorem getLast?_add_of_lt {as bs : List Rat} (h : as.length < bs.length) :
    (add as bs).getLast? = bs.getLast? := by
  induction as generalizing bs with
  | nil => simp [add]
  | cons a as ih =>
    match bs with
    | [] => simp at h
    | [b] => simp at h
    | b :: b' :: bs =>
      have h' : as.length < (b' :: bs).length := by simpa using h
      have hne : add as (b' :: bs) ≠ [] := by
        intro h0
        have := congrArg List.length h0
        simp [length_add] at this
      obtain ⟨y, ys, hy⟩ := List.exists_cons_of_ne_nil hne
      rw [add, List.getLast?_cons_cons, ← ih h', hy, List.getLast?_cons_cons]

theorem add_nil (as : List Rat) : add as [] = as := by
  cases as with
  | nil => rfl
  | cons a as => rfl

/-- The product with a constant is a multiple. -/
theorem mul_singleton (a : Rat) {bs : List Rat} (hbs : bs ≠ []) : mul [a] bs = scale a bs := by
  obtain ⟨b, bs, rfl⟩ := List.exists_cons_of_ne_nil hbs
  change (b * a + 0) :: add (scale a bs) [] = b * a :: scale a bs
  rw [Rat.add_zero, add_nil]

/-- The last coefficient of a product is the product of the last ones, in the place that is the
sum of theirs. -/
theorem getLast?_mul {as bs : List Rat} {a b : Rat} (ha : as.getLast? = some a)
    (hb : bs.getLast? = some b) :
    (mul as bs).getLast? = some (b * a) ∧ (mul as bs).length = as.length + bs.length - 1 := by
  have hbs : bs ≠ [] := by
    rintro rfl
    cases hb
  have hlen := List.length_pos_iff.2 hbs
  induction as with
  | nil => cases ha
  | cons a' as ih =>
    cases as with
    | nil =>
      obtain rfl : a' = a := Option.some.inj ha
      rw [mul_singleton a' hbs, scale, List.getLast?_map, hb, List.length_map]
      exact ⟨rfl, by simp only [List.length_singleton]; omega⟩
    | cons a'' as =>
      obtain ⟨hlast, hlength⟩ := ih (by rwa [List.getLast?_cons_cons] at ha)
      -- the product with the remaining coefficients reaches beyond the multiple by the first one
      have hlonger : (scale a' bs).length < ((0 : Rat) :: mul (a'' :: as) bs).length := by
        simp only [length_scale, List.length_cons, hlength]
        omega
      obtain ⟨y, ys, hy⟩ := List.exists_cons_of_ne_nil (l := mul (a'' :: as) bs) fun h0 => by
        rw [h0] at hlast
        cases hlast
      constructor
      · rw [mul, getLast?_add_of_lt hlonger, hy, List.getLast?_cons_cons, ← hy, hlast]
      · rw [mul, length_add, length_scale, List.length_cons, hlength]
        simp only [List.length_cons]
        omega

/-- The product of two nonzero trimmed lists is trimmed and not empty. -/
theorem mul_ne_nil {as bs : List Rat} (ha : Trimmed as) (hb : Trimmed bs) (ha' : as ≠ [])
    (hb' : bs ≠ []) : trim (mul as bs) ≠ [] := by
  have ha₁ := List.getLast?_eq_some_getLast ha'
  have hb₁ := List.getLast?_eq_some_getLast hb'
  have h := (getLast?_mul ha₁ hb₁).1
  have hab : bs.getLast hb' * as.getLast ha' ≠ 0 := fun h0 => by
    rcases Rat.mul_eq_zero.1 h0 with h0 | h0
    · exact hb (h0 ▸ hb₁)
    · exact ha (h0 ▸ ha₁)
  rw [trim_eq_self (by rw [Trimmed, h]; simpa using hab)]
  intro h0
  simp [h0] at h

/-! ### Long division -/

/-- The remainder is shorter than the divisor. -/
theorem length_remainder_lt {d : List Rat} (hd : d ≠ []) (as : List Rat) :
    (divMod d as).2.length < d.length := by
  have hl : 0 < d.length := List.length_pos_iff.2 hd
  cases as with
  | nil => simpa [divMod] using hl
  | cons a as => simp only [divMod, List.length_take]; omega

/-- A step of long division that finds the digit zero only brings a coefficient down: the place
that it cancels holds a zero already. -/
theorem getD_step_of_digit_zero {d r : List Rat} (hd : d ≠ []) (hd' : Trimmed d)
    (hr : r.length ≤ d.length) (h : r.getD (d.length - 1) 0 / d.getLastD 0 = 0) (i : Nat) :
    ((sub r (scale 0 d)).take (d.length - 1)).getD i 0 = r.getD i 0 := by
  have hsub : ∀ j, (sub r (scale 0 d)).getD j 0 = r.getD j 0 := by
    intro j
    rw [getD_sub, getD_scale, Rat.mul_zero, Rat.sub_eq_add_neg, Rat.neg_zero, Rat.add_zero]
  have htop : r.getD (d.length - 1) 0 = 0 := calc
    r.getD (d.length - 1) 0
      = r.getD (d.length - 1) 0 / d.getLastD 0 * d.getLastD 0 :=
        (Rat.div_mul_cancel (getLastD_ne_zero hd hd')).symm
    _ = 0 := by rw [h, Rat.zero_mul]
  have hzeros : ∀ j, d.length - 1 ≤ j → (sub r (scale 0 d)).getD j 0 = 0 := by
    intro j hj
    rw [hsub]
    rcases Nat.eq_or_lt_of_le hj with rfl | hlt
    · exact htop
    · exact getD_of_length_le (by omega)
  rw [getD_take hzeros, hsub]

/-- If long division finds only zeros for the quotient, then the remainder is the
dividend. -/
theorem getD_remainder_of_quotient_zero {d : List Rat} (hd : d ≠ []) (hd' : Trimmed d)
    {as : List Rat} (h : ∀ q ∈ (divMod d as).1, q = 0) (i : Nat) :
    (divMod d as).2.getD i 0 = as.getD i 0 := by
  induction as generalizing i with
  | nil => rfl
  | cons a as ih =>
    simp only [divMod, List.mem_cons, forall_eq_or_imp] at h ⊢
    obtain ⟨hdigit, hquotient⟩ := h
    have hlen : (a :: (divMod d as).2).length ≤ d.length := length_remainder_lt hd as
    rw [hdigit, getD_step_of_digit_zero hd hd' hlen hdigit]
    cases i with
    | zero => rfl
    | succ i => exact ih hquotient i

/-- The quotient by a polynomial of no higher degree is not zero. -/
theorem trim_quotient_ne_nil {d as : List Rat} (hd : d ≠ []) (hd' : Trimmed d)
    (ha : Trimmed as) (h : d.length ≤ as.length) : trim (divMod d as).1 ≠ [] := by
  intro h0
  have hq := getD_remainder_of_quotient_zero hd hd' (trim_eq_nil_iff.1 h0)
  have hlen := length_remainder_lt hd as
  have hpos : 0 < d.length := List.length_pos_iff.2 hd
  have hl := hq (as.length - 1)
  rw [List.getD_eq_getElem?_getD, List.getElem?_eq_none (by omega),
    List.getD_eq_getElem?_getD, ← List.getLast?_eq_getElem?] at hl
  cases hx : as.getLast? with
  | none => rw [List.getLast?_eq_none_iff.1 hx, List.length_nil] at h; omega
  | some y =>
    rw [hx] at hl
    exact ha (by rw [hx]; simpa using hl.symm)

end ExactAlgebra.Coefficients
