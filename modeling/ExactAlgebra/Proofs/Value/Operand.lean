import ExactAlgebra.Proofs.RationalFunction.Canonical
import ExactAlgebra.Proofs.RationalFunction.Field

/-!
Operands: numbers, polynomials and rational functions side by side.

* `Value.toRational?_eq_ok_iff` lists the forms of a number.
* An `Operand` is a number in any of its forms, a polynomial or a rational function, and
  `Operand.value` is the value that takes part in an operation.
* `Operand.toFunction` is the rational function that an operand is read as
  (`Value.asFunction?_operand`). An operand is zero when this function is
  (`Operand.isZero_iff`).
-/

namespace ExactAlgebra

/-- The values that are numbers, and the texts that denote one. -/
lemma Value.toRational?_eq_ok_iff {v : Value} {c : ℚ} :
    v.toRational? = .ok c ↔
      (∃ n : ℤ, v = .integer n ∧ n = c) ∨ (∃ n : ℤ, v = .machineInteger n ∧ n = c)
        ∨ v = .fraction c ∨ v = .rational c ∨ ∃ s, v = .text s ∧ numeral? s = some c := by
  cases v with
  | text s => cases h : numeral? s <;> simp [toRational?, h]
  | _ => simp [toRational?]

/-- A number, a polynomial or a rational function that takes part in an operation. -/
inductive Operand
  /-- A value that is or denotes a number: an integer, a fraction, a rational or a numeral. -/
  | number (v : Value) (c : ℚ) (reads : v.toRational? = .ok c)
  | polynomial (p : Polynomial)
  | function (r : RationalFunction)

namespace Operand

/-- The operand as a value. -/
def value : Operand → Value
  | number v _ _ => v
  | polynomial p => .polynomial p
  | function r => .function r

/-- The rational function that an operand is read as; a number is a constant. -/
def toFunction : Operand → RationalFunction
  | number _ c _ => .const c
  | polynomial p => .ofPolynomial p
  | function r => r

/-- Whether an operand is a number. -/
def isNumber : Operand → Bool
  | number .. => true
  | _ => false

/-- Whether an operand is zero, each kind in its own way. -/
def isZero : Operand → Bool
  | number _ c _ => c = 0
  | polynomial p => p.isZero
  | function r => r.isZero

end Operand

open RationalFunction

namespace Value

lemma asFunction?_of_toRational? {v : Value} {c : ℚ} (h : v.toRational? = .ok c) :
    v.asFunction? = .ok (const c) := by
  rcases toRational?_eq_ok_iff.mp h with ⟨n, rfl, rfl⟩ | ⟨n, rfl, rfl⟩ | rfl | rfl | ⟨s, rfl, -⟩
  · rfl
  · rfl
  · rfl
  · rfl
  · simp only [asFunction?, asPolynomial?, tupleItems?, h]
    rfl

lemma asFunction?_operand (a : Operand) : a.value.asFunction? = .ok a.toFunction := by
  cases a with
  | number v c reads => exact asFunction?_of_toRational? reads
  | polynomial p => rfl
  | function r => rfl

end Value

lemma Operand.isZero_iff (a : Operand) : a.isZero = true ↔ a.toFunction.toRatFunc = 0 := by
  rw [toRatFunc_eq_zero_iff]
  cases a with
  | number v c reads => simp [isZero, toFunction, isZero_iff_beq_const, beq_iff_toRatFunc]
  | polynomial p => rfl
  | function r => rfl

end ExactAlgebra
