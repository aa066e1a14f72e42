import ExactAlgebra.Error
import ExactAlgebra.Polynomial.Coefficients

/-!
Polynomials in one variable with rational coefficients.

A `Polynomial` is a trimmed coefficient list together with a label, the name under
which its variable is shown. The list of the zero polynomial is empty, so that the
degree is the length less one, `-1` for zero, and two polynomials with the same
coefficients have the same list.

* `coefficients` is the list that is shown: `[0]` for the zero polynomial.
* `ofList`, `ofCoefficients?` build a polynomial from any coefficient list.
* Equality `p == q` compares the coefficients; the label is for display only.
-/

namespace ExactAlgebra

open Coefficients

/-- A polynomial with rational coefficients and the name of its variable. -/
structure Polynomial where
  /-- The coefficients, the constant term first, without zeros at the end. -/
  ascending : List Rat
  /-- The name given to the variable, if one was given. -/
  label : Option String
  trimmed : Trimmed ascending
  deriving DecidableEq

/-- The name of the variable of a polynomial that was given none. -/
def defaultVariable : String := "x"

namespace Polynomial

/-- The polynomial with the given coefficients, zeros at the end allowed; the empty
list gives zero. -/
def ofList (cs : List Rat) (label : Option String) : Polynomial :=
  ⟨trim cs, label, trim_trimmed cs⟩

/-- The polynomial with the given coefficients, of which there must be one. -/
def ofCoefficients? (cs : List Rat) (label : Option String) : Except Error Polynomial :=
  if cs.isEmpty then .error .noCoefficients else .ok (ofList cs label)

/-- The coefficients as they are shown, the constant term first: at least one, and no
zero at the end except for the zero polynomial. -/
def coefficients (p : Polynomial) : List Rat :=
  if p.ascending.isEmpty then [0] else p.ascending

/-- The same polynomial under another label. -/
def withLabel (p : Polynomial) (label : Option String) : Polynomial :=
  { p with label }

/-- Equality of polynomials is equality of coefficients. -/
instance : BEq Polynomial where
  beq p q := p.ascending == q.ascending

/-- Whether a polynomial is zero. -/
def isZero (p : Polynomial) : Bool := p.ascending.isEmpty

/-- The degree, `-1` for the zero polynomial. -/
def degree (p : Polynomial) : Int := p.ascending.length - 1

/-- The coefficient of the highest power, zero for the zero polynomial. -/
def leadingCoefficient (p : Polynomial) : Rat := p.ascending.getLastD 0

/-- Whether the leading coefficient is one. -/
def isMonic (p : Polynomial) : Bool := p.leadingCoefficient = 1

/-- The coefficient of the `n`-th power. -/
def coefficient (p : Polynomial) (n : Nat) : Rat := p.ascending.getD n 0

/-- The name under which the variable is shown: the label, unless it is missing or
empty. -/
def variableName (p : Polynomial) : String :=
  match p.label with
  | some name => if name.isEmpty then defaultVariable else name
  | none => defaultVariable

/-- The label that a result inherits from two polynomials: that of the first, if it has
one. -/
def jointLabel (p q : Polynomial) : Option String := p.label.or q.label

/-- The zero polynomial. -/
def zero (label : Option String) : Polynomial := ofList [] label

/-- The constant polynomial. -/
def const (c : Rat) (label : Option String) : Polynomial := ofList [c] label

/-- The constant polynomial one. -/
def one (label : Option String) : Polynomial := const 1 label

/-- The polynomial `c * x ^ degree`. -/
def monomial (degree : Nat) (c : Rat) (label : Option String) : Polynomial :=
  ofList (List.replicate degree 0 ++ [c]) label

/-- The polynomial `x - r`. -/
def linear (r : Rat) (label : Option String) : Polynomial := ofList [-r, 1] label

/-! ### The coefficient pairs of a polynomial -/

/-- The coefficients as pairs of numerator and denominator in lowest terms. -/
def toPairs (p : Polynomial) : List (Int × Nat) :=
  p.coefficients.map fun c => (c.num, c.den)

/-- The quotient of a pair of integers with a nonzero second member. -/
def ofPair? (pair : Int × Int) : Except Error Rat :=
  if pair.2 = 0 then .error (.zeroPairDenominator pair.1) else .ok (pair.1 / pair.2)

/-- The polynomial whose coefficients are the quotients of the given pairs. -/
def ofPairs? (pairs : List (Int × Int)) (label : Option String) : Except Error Polynomial := do
  ofCoefficients? (← pairs.mapM ofPair?) label

/-! ### First facts -/

/-- A polynomial is made by trimming. -/
theorem ascending_ofList (cs : List Rat) (label : Option String) :
    (ofList cs label).ascending = trim cs := rfl

/-- Two polynomials with the same label hand it on. -/
theorem jointLabel_of_label_eq {p q : Polynomial} (h : p.label = q.label) :
    p.jointLabel q = q.label := by
  rw [jointLabel, h, Option.or_self]

/-- Polynomials are compared by their coefficients. -/
theorem beq_iff {p q : Polynomial} : (p == q) = true ↔ p.ascending = q.ascending := by
  change (p.ascending == q.ascending) = true ↔ _
  exact beq_iff_eq

theorem isZero_iff {p : Polynomial} : p.isZero = true ↔ p.ascending = [] := List.isEmpty_iff

theorem isZero_eq_false_iff {p : Polynomial} : p.isZero = false ↔ p.ascending ≠ [] := by
  rw [← Bool.not_eq_true, isZero_iff]

/-- The shown coefficients determine the polynomial. -/
theorem ofList_coefficients (p : Polynomial) : ofList p.coefficients p.label = p := by
  obtain ⟨as, label, h⟩ := p
  unfold ofList coefficients
  by_cases h0 : as.isEmpty = true
  · have : as = [] := List.isEmpty_iff.1 h0
    subst this
    simp [trim]
  · simp [h0, trim_eq_self h]

/-- There is always a coefficient: zero shows as `[0]`. -/
theorem coefficients_ne_nil (p : Polynomial) : p.coefficients ≠ [] := by
  unfold coefficients
  split
  · simp
  · simp_all

theorem isZero_const {c : Rat} {label : Option String} (h : c ≠ 0) :
    (const c label).isZero = false := by
  rw [isZero_eq_false_iff, const, ascending_ofList, Ne, trim_eq_nil_iff]
  simpa using h

theorem isZero_one (label : Option String) : (one label).isZero = false := isZero_const (by decide)

theorem isZero_linear (r : Rat) (label : Option String) : (linear r label).isZero = false := by
  rw [isZero_eq_false_iff, linear, ascending_ofList, Ne, trim_eq_nil_iff]
  intro h
  exact absurd (h 1 (by simp)) (by decide)

end Polynomial

end ExactAlgebra
