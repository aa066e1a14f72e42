import Mathlib.Tactic.FieldSimp
import ExactAlgebra.Proofs.Rational.DecimalText

/-!
Reading numbers that are written with digits only.

* **Written numbers.** A `WrittenNumber` is a run of digits with an optional decimal part and an
  optional divisor, `whole[.fraction][/divisor]`. `WrittenNumber.value` is the number it stands
  for; it stands for one unless the divisor is zero.
* **Reading.** The text in front of the divisor is a written decimal (`toDecimal`), so that
  `numeral?` gives a written number its value (`numeral?_text`).
* **Printing.** `ofRat` is the written number that is the text of a rational
  (`text_ofRat`), and its value is that rational (`value_ofRat`).
-/

namespace ExactAlgebra

open Text

/-! ### Written numbers -/

/-- The text of a part that may be missing: its separator and its digits. -/
def partText (separator : Char) : Option Digits → List Char
  | none => []
  | some d => separator :: d.chars

lemma mem_partText {separator c : Char} {part : Option Digits} (hc : c ∈ partText separator part) :
    isDecimal c = true ∨ c = separator := by
  cases part with
  | none => cases hc
  | some d =>
      rcases List.mem_cons.mp hc with h | h
      · exact .inr h
      · exact .inl (d.isDecimal_of_mem c h)

/-- A number as it is written: `whole[.fraction][/divisor]`. -/
structure WrittenNumber where
  whole : Digits
  fraction : Option Digits
  divisor : Option Digits

namespace WrittenNumber

/-- The text in front of the divisor. -/
def decimalText (n : WrittenNumber) : List Char := n.whole.chars ++ partText '.' n.fraction

/-- The text of a written number. -/
def text (n : WrittenNumber) : List Char := n.decimalText ++ partText '/' n.divisor

/-- The number in front of the divisor. -/
def decimalValue (n : WrittenNumber) : ℚ :=
  n.whole.value + n.fraction.elim (0 : ℚ) fun f => (f.value : ℚ) / 10 ^ f.chars.length

/-- The number that stands under the bar, one if there is none. -/
def divisorValue (n : WrittenNumber) : ℕ := n.divisor.elim 1 Digits.value

/-- The number that is written. -/
def value (n : WrittenNumber) : ℚ := n.decimalValue / n.divisorValue

/-! ### The characters of a written number -/

lemma mem_decimalText {n : WrittenNumber} {c : Char} (hc : c ∈ n.decimalText) :
    isDecimal c = true ∨ c = '.' := by
  rcases List.mem_append.mp hc with h | h
  · exact .inl (n.whole.isDecimal_of_mem c h)
  · exact mem_partText h

/-- A written number has digits, points and slashes. -/
lemma mem_text {n : WrittenNumber} {c : Char} (hc : c ∈ n.text) :
    isDecimal c = true ∨ c = '.' ∨ c = '/' := by
  rcases List.mem_append.mp hc with h | h
  · exact (mem_decimalText h).imp_right .inl
  · exact (mem_partText h).imp_right .inr

lemma isBlank_of_mem_text {n : WrittenNumber} {c : Char} (hc : c ∈ n.text) :
    isBlank c = false := by
  rcases mem_text hc with h | rfl | rfl
  · exact isBlank_of_isDecimal h
  · decide
  · decide

/-- A written number begins with a digit. -/
lemma exists_text_eq_cons (n : WrittenNumber) :
    ∃ c cs, n.text = c :: cs ∧ isDecimal c = true := by
  obtain ⟨c, cs, h, hc, _⟩ := n.whole.exists_eq_cons
  exact ⟨c, _, by rw [text, decimalText, h]; rfl, hc⟩

/-! ### Reading a written number -/

/-- The number in front of the divisor is a decimal numeral without a sign and an exponent. -/
def toDecimal (n : WrittenNumber) : WrittenDecimal where
  sign := .absent
  whole := [n.whole]
  fraction := n.fraction.map fun f => [f]
  exponent := none
  whole_or_fraction := .inl (List.cons_ne_nil _ _)

/-- The part in front of the divisor is a decimal numeral without groups and exponent. -/
lemma text_toDecimal (n : WrittenNumber) : n.toDecimal.text = n.decimalText := by
  have hwhole : n.toDecimal.text = n.whole.chars ++ pointText (n.fraction.map fun f => [f]) := by
    simp [WrittenDecimal.text, WrittenDecimal.unsignedText, WrittenDecimal.exponentText, toDecimal,
      WrittenSign.chars, groupedChars_singleton]
  rw [hwhole, decimalText]
  cases n.fraction with
  | none => rfl
  | some f => rw [Option.map_some, pointText, groupedChars_singleton, partText]

lemma value_toDecimal (n : WrittenNumber) : n.toDecimal.value = n.decimalValue := by
  have hmantissa : n.toDecimal.mantissa
      = n.whole.value * 10 ^ n.toDecimal.fractionValues.length
        + ofDigitValues n.toDecimal.fractionValues := by
    rw [WrittenDecimal.mantissa, ← ofDigitValues_eq, ofDigitValues_append]
    simp [toDecimal, groupedValues_singleton, WrittenSign.factor, Digits.ofDigitValues_values]
  have hexponent : n.toDecimal.exponentValue = 0 := rfl
  have hfraction : n.toDecimal.fractionValues = n.fraction.elim [] Digits.values := by
    obtain ⟨whole, fraction, divisor⟩ := n
    cases fraction with
    | none => rfl
    | some f => exact groupedValues_singleton f
  rw [WrittenDecimal.value, hmantissa, hexponent, hfraction, decimalValue, zero_sub, zpow_neg,
    zpow_natCast]
  -- the digits behind the point shift the whole part, and the power of ten shifts it back
  cases n.fraction with
  | none => simp [ofDigitValues]
  | some f =>
      simp only [Option.elim_some, Digits.ofDigitValues_values, Digits.length_values]
      push_cast
      field_simp

lemma decimalValue?_decimalText (n : WrittenNumber) :
    decimalValue? n.decimalText = some n.decimalValue := by
  rw [← text_toDecimal, WrittenDecimal.decimalValue?_text, value_toDecimal]

/-- The divisor is a number without a decimal part. -/
lemma decimalValue?_digits (d : Digits) : decimalValue? d.chars = some (d.value : ℚ) := by
  have h := decimalValue?_decimalText ⟨d, none, none⟩
  simpa [decimalText, partText, decimalValue] using h

/-- A written number is read as its value, unless it divides by zero. -/
lemma compactNumeral?_text (n : WrittenNumber) :
    compactNumeral? n.text = if n.divisorValue = 0 then none else some n.value := by
  have hbar : '/' ∉ n.decimalText := by
    rw [← text_toDecimal]
    exact WrittenDecimal.not_mem_text (by decide) (by decide)
  rw [text, value, divisorValue]
  cases n.divisor with
  | none => simp [partText, compactNumeral?_of_not_mem hbar, decimalValue?_decimalText]
  | some d =>
      rw [partText, compactNumeral?_bar hbar, decimalValue?_decimalText, decimalValue?_digits]
      by_cases hd : d.value = 0 <;> simp [quotient?, hd]

/-- Reading a written number gives its value, and fails for the divisor zero alone. -/
lemma numeral?_text (n : WrittenNumber) :
    numeral? (String.ofList n.text) = if n.divisorValue = 0 then none else some n.value := by
  have hspace : ' ' ∉ n.text := fun h => absurd (isBlank_of_mem_text h) (by decide)
  rw [numeral?_eq, String.toList_ofList, dropSpaces_eq_self hspace, compactNumeral?_text]

/-! ### Printed rationals -/

/-- The absolute value of a rational as it is printed. -/
def ofRat (c : ℚ) : WrittenNumber where
  whole := .ofNat c.num.natAbs
  fraction := none
  divisor := if c.den = 1 then none else some (.ofNat c.den)

lemma text_ofRat {c : ℚ} (hc : 0 ≤ c) : (ofRat c).text = (rationalText c).toList := by
  obtain ⟨n, hn⟩ := Int.eq_ofNat_of_zero_le (Rat.num_nonneg.mpr hc)
  have hnum : (toString c.num).toList = (Digits.ofNat c.num.natAbs).chars := by
    rw [hn]
    exact Digits.toList_toString n
  rw [rationalText, text, decimalText, ofRat]
  split
  · rw [hnum, partText, partText, List.append_nil, List.append_nil]
  · rw [String.toList_append, String.toList_append, hnum, Digits.toList_toString, partText,
      partText, List.append_nil, List.append_assoc]
    rfl

lemma divisorValue_ofRat (c : ℚ) : (ofRat c).divisorValue = c.den := by
  rw [divisorValue, ofRat]
  split
  · next h => rw [h]; rfl
  · exact Digits.value_ofNat c.den

/-- A printed number has the value that it is printed for. -/
lemma value_ofRat {c : ℚ} (hc : 0 ≤ c) : (ofRat c).value = c := by
  have hnum : ((c.num.natAbs : ℕ) : ℚ) = c.num := by
    rw [Nat.cast_natAbs, abs_of_nonneg (Rat.num_nonneg.mpr hc)]
  rw [value, divisorValue_ofRat, decimalValue, ofRat]
  simp only [Option.elim_none, add_zero, Digits.value_ofNat, hnum]
  exact Rat.num_div_den c

end WrittenNumber

end ExactAlgebra
