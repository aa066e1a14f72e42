import Mathlib.Data.List.Induction
import Mathlib.Data.Nat.Digits.Defs
import Mathlib.Tactic.Ring
import ExactAlgebra.Text.Blank
import ExactAlgebra.Text.DecimalDigit

/-!
Runs of decimal digits.

* **The class.** Below `U+0660` the decimal digits are those of ASCII
  (`toNat_of_isDecimal`), so that no letter, mark or blank is one.
* **Runs.** `Digits` is a run of at least one digit, and `Digits.value` the natural number that
  it writes in base ten. Reading digit by digit gives this number (`ofDigitValues_eq`), and every
  number is the value of the run that prints it (`value_ofNat`).
-/

namespace ExactAlgebra.Text

/-! ### The class of decimal digits -/

/-- A digit stands at most nine places behind the zero of its script. -/
lemma exists_scriptZero {c : Char} (h : isDecimal c = true) :
    ∃ z ∈ scriptZeros, z ≤ c.toNat ∧ c.toNat < z + 10 := by
  obtain ⟨d, hd⟩ := Option.isSome_iff_exists.mp h
  obtain ⟨z, hz, hc⟩ := List.exists_of_findSome?_eq_some hd
  split at hc
  · next hbounds => exact ⟨z, hz, hbounds⟩
  · cases hc

/-- Beyond the ASCII digits, all digits have code points from `0x660` on. -/
lemma toNat_of_isDecimal {c : Char} (h : isDecimal c = true) :
    (48 ≤ c.toNat ∧ c.toNat ≤ 57) ∨ 0x660 ≤ c.toNat := by
  have hall : ∀ z ∈ scriptZeros, z = 48 ∨ 0x660 ≤ z := by decide
  obtain ⟨z, hz, h₁, h₂⟩ := exists_scriptZero h
  rcases hall z hz with rfl | hge
  · exact .inl (by omega)
  · exact .inr (by omega)

/-- The blanks lie between the scripts that have digits. -/
lemma isBlank_of_isDecimal {c : Char} (h : isDecimal c = true) : isBlank c = false := by
  have hall : ∀ z ∈ scriptZeros, z = 48 ∨ (0x660 ≤ z ∧ z + 10 ≤ 0x1680)
      ∨ (0x1681 ≤ z ∧ z + 10 ≤ 0x2000) ∨ 0x3001 ≤ z := by decide
  obtain ⟨z, hz, h₁, h₂⟩ := exists_scriptZero h
  have hc := hall z hz
  simp only [isBlank, Bool.or_eq_false_iff, Bool.and_eq_false_iff, decide_eq_false_iff_not]
  omega

/-- A digit differs from every character that is none. -/
lemma ne_of_isDecimal {c b : Char} (hc : isDecimal c = true) (hb : isDecimal b = false) :
    c ≠ b := by
  rintro rfl
  rw [hc] at hb
  exact absurd hb (by decide)

lemma isDecimal_of_isDigit {c : Char} (h : c.isDigit = true) : isDecimal c = true := by
  rw [isDecimal, digitValue?_eq_of_isDigit h]
  rfl

/-! ### Positional values -/

/-- Reading digit by digit, from the highest one down, is the value in base ten. -/
lemma ofDigitValues_eq (ds : List ℕ) : ofDigitValues ds = Nat.ofDigits 10 ds.reverse := by
  induction ds using List.reverseRecOn with
  | nil => rfl
  | append_singleton ds d ih =>
      have hstep : ofDigitValues (ds ++ [d]) = 10 * ofDigitValues ds + d := by
        simp [ofDigitValues]
      rw [hstep, ih, List.reverse_append, List.reverse_singleton, List.singleton_append,
        Nat.ofDigits_cons]
      ring

/-- Digits in front are shifted by the number of those behind. -/
lemma ofDigitValues_append (as bs : List ℕ) :
    ofDigitValues (as ++ bs) = ofDigitValues as * 10 ^ bs.length + ofDigitValues bs := by
  rw [ofDigitValues_eq, ofDigitValues_eq, ofDigitValues_eq, List.reverse_append,
    Nat.ofDigits_append, List.length_reverse]
  ring

/-! ### Runs of digits -/

/-- A run of decimal digits, at least one. -/
structure Digits where
  chars : List Char
  chars_ne_nil : chars ≠ []
  isDecimal_of_mem : ∀ c ∈ chars, isDecimal c = true

namespace Digits

/-- The values of the digits, the highest place first. -/
def values (d : Digits) : List ℕ := d.chars.filterMap digitValue?

/-- The number that a run of digits writes in base ten. -/
def value (d : Digits) : ℕ := Nat.ofDigits 10 d.values.reverse

lemma ofDigitValues_values (d : Digits) : ofDigitValues d.values = d.value :=
  ofDigitValues_eq d.values

lemma length_values (d : Digits) : d.values.length = d.chars.length := by
  rw [values, List.filterMap_length_eq_length]
  exact d.isDecimal_of_mem

lemma values_ne_nil (d : Digits) : d.values ≠ [] := by
  rw [ne_eq, ← List.length_eq_zero_iff, d.length_values, List.length_eq_zero_iff]
  exact d.chars_ne_nil

/-- A run with its first digit apart. -/
lemma exists_eq_cons (d : Digits) :
    ∃ c cs, d.chars = c :: cs ∧ isDecimal c = true ∧ ∀ b ∈ cs, isDecimal b = true := by
  obtain ⟨c, cs, h⟩ := List.exists_cons_of_ne_nil d.chars_ne_nil
  have hall := d.isDecimal_of_mem
  rw [h] at hall
  exact ⟨c, cs, h, hall c List.mem_cons_self, fun b hb => hall b (List.mem_cons_of_mem c hb)⟩

/-- The digits of a natural number. -/
def ofNat (n : ℕ) : Digits where
  chars := Nat.toDigits 10 n
  chars_ne_nil := Nat.toDigits_ne_nil
  isDecimal_of_mem := fun _ hc =>
    isDecimal_of_isDigit (Nat.isDigit_of_mem_toDigits (by decide) (by decide) hc)

/-- Digits of ASCII continue a number in the same way for both readers. -/
lemma ofDigitChars_eq_foldl {cs : List Char} (h : ∀ c ∈ cs, c.isDigit = true) (n : ℕ) :
    Nat.ofDigitChars 10 cs n
      = (cs.filterMap digitValue?).foldl (fun n d => 10 * n + d) n := by
  induction cs generalizing n with
  | nil => rfl
  | cons c cs ih =>
      rw [List.filterMap_cons_some (digitValue?_eq_of_isDigit (h c List.mem_cons_self)),
        List.foldl_cons, ← ih fun b hb => h b (List.mem_cons_of_mem c hb)]
      rfl

lemma ofDigitChars_eq {cs : List Char} (h : ∀ c ∈ cs, c.isDigit = true) :
    Nat.ofDigitChars 10 cs 0 = ofDigitValues (cs.filterMap digitValue?) :=
  ofDigitChars_eq_foldl h 0

/-- The digits of a number write that number. -/
lemma value_ofNat (n : ℕ) : (ofNat n).value = n := by
  have hdigit : ∀ c ∈ Nat.toDigits 10 n, c.isDigit = true := fun c hc =>
    Nat.isDigit_of_mem_toDigits (by decide) (by decide) hc
  rw [← ofDigitValues_values, values, ofNat, ← ofDigitChars_eq hdigit,
    Nat.ofDigitChars_toDigits (by decide) (by decide)]

/-- A natural number is printed as its digits. -/
lemma toList_toString (n : ℕ) : (toString n).toList = (ofNat n).chars := by
  rw [Nat.toString_eq_repr, Nat.toList_repr, ofNat]

end Digits

end ExactAlgebra.Text
