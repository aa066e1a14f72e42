import ExactAlgebra.Polynomial.Basic

/-!
The ring operations on polynomials, evaluation and composition.

* Sum, difference, product and natural powers, with the label of the first operand
  that has one.
* `eval`, `hornerSteps`: the value at a point and the way Horner's method reaches it.
* `compose`: substitution of a polynomial for the variable.
* `ofRoots`: the monic polynomial with given roots.
* `isZero_mul`: there are no zero divisors.
-/

namespace ExactAlgebra.Polynomial

open Coefficients

instance : Add Polynomial where
  add p q := ofList (Coefficients.add p.ascending q.ascending) (p.jointLabel q)

instance : Neg Polynomial where
  neg p := ofList (Coefficients.neg p.ascending) p.label

instance : Sub Polynomial where
  sub p q := ofList (Coefficients.sub p.ascending q.ascending) (p.jointLabel q)

instance : Mul Polynomial where
  mul p q := ofList (Coefficients.mul p.ascending q.ascending) (p.jointLabel q)

/-- The multiple of a polynomial by a number. -/
def scale (p : Polynomial) (c : Rat) : Polynomial :=
  ofList (Coefficients.scale c p.ascending) p.label

/-- The power with a natural exponent; the power zero is one. -/
def pow (p : Polynomial) : Nat → Polynomial
  | 0 => one p.label
  | n + 1 => pow p n * p

instance : Pow Polynomial Nat where
  pow := pow

/-- The value at a point. -/
def eval (p : Polynomial) (x : Rat) : Rat := Coefficients.eval x p.ascending

/-- The running values of Horner's method, from the leading coefficient to the value at
the point. -/
def hornerSteps (p : Polynomial) (x : Rat) : List Rat :=
  (runningValues x p.coefficients).reverse

/-- The polynomial with `q` substituted for the variable, by Horner's method. -/
def compose (p q : Polynomial) : Polynomial :=
  p.coefficients.foldr (fun c acc => acc * q + const c q.label) (zero q.label)

/-- The monic polynomial with the given roots, each as often as it is listed. -/
def ofRoots (roots : List Rat) (label : Option String) : Polynomial :=
  roots.foldl (fun p r => p * linear r label) (one label)

/-! ### Labels -/

/-- Sums, differences and products have the label of their operands, that of the left one first. -/
theorem label_add (p q : Polynomial) : (p + q).label = p.jointLabel q := rfl

theorem label_sub (p q : Polynomial) : (p - q).label = p.jointLabel q := rfl

theorem label_mul (p q : Polynomial) : (p * q).label = p.jointLabel q := rfl

/-- A power has the label of its base. -/
theorem label_pow (p : Polynomial) (n : Nat) : (p ^ n).label = p.label := by
  induction n with
  | zero => rfl
  | succ n ih => exact jointLabel_of_label_eq ih

/-- A composition has the label of the polynomial that is substituted. -/
theorem label_compose (p q : Polynomial) : (p.compose q).label = q.label := by
  unfold compose
  induction p.coefficients with
  | nil => rfl
  | cons c cs ih =>
    rw [List.foldr_cons, label_add, jointLabel_of_label_eq]
    · rfl
    · exact jointLabel_of_label_eq ih

/-! ### Products of nonzero polynomials -/

/-- A product of nonzero polynomials is not zero, since the leading coefficients multiply. -/
theorem isZero_mul {p q : Polynomial} (hp : p.isZero = false) (hq : q.isZero = false) :
    (p * q).isZero = false := by
  rw [isZero_eq_false_iff] at hp hq ⊢
  exact mul_ne_nil p.trimmed q.trimmed hp hq

/-- A multiple by a nonzero number is not zero. -/
theorem isZero_scale {p : Polynomial} {c : Rat} (hp : p.isZero = false) (hc : c ≠ 0) :
    (p.scale c).isZero = false := by
  rw [isZero_eq_false_iff] at hp ⊢
  rw [scale, ascending_ofList, Ne, trim_eq_nil_iff]
  intro h
  apply p.trimmed
  rw [List.getLast?_eq_some_getLast hp]
  have := h (p.ascending.getLast hp * c) (List.mem_map.2 ⟨_, List.getLast_mem hp, rfl⟩)
  rcases Rat.mul_eq_zero.1 this with h0 | h0
  · rw [h0]
  · exact absurd h0 hc

/-- Powers of a nonzero polynomial are not zero. -/
theorem isZero_pow {p : Polynomial} (hp : p.isZero = false) (n : Nat) : (p ^ n).isZero = false := by
  induction n with
  | zero => exact isZero_one _
  | succ n ih => exact isZero_mul ih hp

/-- Linear factors keep a product away from zero. -/
theorem isZero_foldl_linear (roots : List Rat) {label : Option String} {p : Polynomial}
    (hp : p.isZero = false) :
    (roots.foldl (fun p r => p * linear r label) p).isZero = false := by
  induction roots generalizing p with
  | nil => exact hp
  | cons r roots ih => exact ih (isZero_mul hp (isZero_linear r label))

theorem isZero_ofRoots (roots : List Rat) (label : Option String) :
    (ofRoots roots label).isZero = false := isZero_foldl_linear roots (isZero_one label)

/-- A nonzero polynomial has a leading coefficient other than zero. -/
theorem leadingCoefficient_ne_zero {p : Polynomial} (hp : p.isZero = false) :
    p.leadingCoefficient ≠ 0 := getLastD_ne_zero (isZero_eq_false_iff.1 hp) p.trimmed

end ExactAlgebra.Polynomial
