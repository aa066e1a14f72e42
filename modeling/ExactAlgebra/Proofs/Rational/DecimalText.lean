import ExactAlgebra.Error
import ExactAlgebra.Proofs.Rational.Spacing

/-!
Reading decimal numerals and printed rationals.

* **The grammar.** A `WrittenDecimal` is `sign whole.fraction e exponent`, where only one digit
  before or after the point is obligatory. Its digits are of any script and may stand in groups,
  with an underscore between two groups (`groupedChars`). `WrittenDecimal.value` is the signed
  integer of all its digits times the power of ten that puts the point back.
* **Reading.** Each part of the text is taken by its own reader and nothing is left over
  (`decimal?_text`), so that `numeral?` gives a written decimal its value (`numeral?_text`).
* **Printing.** An integer is printed as a written decimal (`numeral?_toString`) and a rational as a
  quotient of two integers, in lowest terms or not (`numeral?_rationalText`,
  `numeral?_unreduced`).
-/

namespace ExactAlgebra

open Text

/-! ### Digits in groups -/

/-- Digits in groups, with an underscore between two groups. -/
def groupedChars (gs : List Digits) : List Char := ['_'].intercalate (gs.map Digits.chars)

/-- The values of the digits of all groups, the highest place first. -/
def groupedValues (gs : List Digits) : List ℕ := gs.flatMap Digits.values

lemma groupedChars_cons (g h : Digits) (gs : List Digits) :
    groupedChars (g :: h :: gs) = g.chars ++ '_' :: groupedChars (h :: gs) := by
  simp [groupedChars]

lemma groupedChars_singleton (g : Digits) : groupedChars [g] = g.chars := by
  simp [groupedChars]

lemma groupedValues_singleton (g : Digits) : groupedValues [g] = g.values :=
  List.flatMap_singleton ..

lemma mem_groupedChars {gs : List Digits} {c : Char} (hc : c ∈ groupedChars gs) :
    isDecimal c = true ∨ c = '_' := by
  induction gs with
  | nil => simp [groupedChars] at hc
  | cons g gs ih =>
      cases gs with
      | nil =>
          rw [groupedChars_singleton] at hc
          exact .inl (g.isDecimal_of_mem c hc)
      | cons h gs =>
          rw [groupedChars_cons, List.mem_append, List.mem_cons] at hc
          rcases hc with hc | hc | hc
          · exact .inl (g.isDecimal_of_mem c hc)
          · exact .inr hc
          · exact ih hc

/-- Digits in groups begin with a digit. -/
lemma exists_groupedChars_eq_cons (g : Digits) (gs : List Digits) :
    ∃ c cs, groupedChars (g :: gs) = c :: cs ∧ isDecimal c = true := by
  obtain ⟨c, cs, h, hc, -⟩ := g.exists_eq_cons
  cases gs with
  | nil => exact ⟨c, cs, by rw [groupedChars_singleton, h], hc⟩
  | cons g' gs => exact ⟨c, _, by rw [groupedChars_cons, h]; rfl, hc⟩

lemma groupedValues_ne_nil (g : Digits) (gs : List Digits) : groupedValues (g :: gs) ≠ [] := by
  intro h
  exact g.values_ne_nil (List.append_eq_nil_iff.mp h).1

/-- An underscore between two digits is skipped. -/
lemma takeMoreDigits_underscore_cons {c : Char} (hc : isDecimal c = true) (cs : List Char) :
    takeMoreDigits ('_' :: c :: cs) = takeMoreDigits (c :: cs) := by
  obtain ⟨d, hd⟩ := Option.isSome_iff_exists.mp hc
  rw [takeMoreDigits_cons hd, takeMoreDigits, hd]

lemma takeMoreDigits_groupedChars (g : Digits) (gs : List Digits) {rest : List Char}
    (hrest : EndsDigits rest) :
    takeMoreDigits (groupedChars (g :: gs) ++ rest) = (groupedValues (g :: gs), rest) := by
  induction gs generalizing g with
  | nil =>
      rw [groupedChars_singleton, takeMoreDigits_append g.isDecimal_of_mem hrest,
        groupedValues_singleton, Digits.values]
  | cons h gs ih =>
      obtain ⟨c, cs, hcs, hc⟩ := exists_groupedChars_eq_cons h gs
      have hmore := ih h
      rw [hcs, List.cons_append, ← takeMoreDigits_underscore_cons hc] at hmore
      rw [groupedChars_cons, hcs, List.append_assoc, takeMoreDigits_digits g.isDecimal_of_mem,
        List.cons_append, List.cons_append, hmore]
      rfl

lemma takeDigits_groupedChars (gs : List Digits) {rest : List Char} (hrest : EndsDigits rest) :
    takeDigits (groupedChars gs ++ rest) = (groupedValues gs, rest) := by
  cases gs with
  | nil => exact takeDigits_of_endsDigits hrest
  | cons g gs =>
      obtain ⟨c, cs, hcs, hc⟩ := exists_groupedChars_eq_cons g gs
      obtain ⟨d, hd⟩ := Option.isSome_iff_exists.mp hc
      rw [← takeMoreDigits_groupedChars g gs hrest, hcs, List.cons_append, takeMoreDigits_cons hd,
        takeDigits, hd]

/-! ### Decimal numerals as they are written -/

/-- A sign, which may be missing. -/
inductive WrittenSign
  | absent
  | plus
  | minus
  deriving DecidableEq

namespace WrittenSign

/-- The text of a sign. -/
def chars : WrittenSign → List Char
  | absent => []
  | plus => ['+']
  | minus => ['-']

/-- The factor that a sign stands for. -/
def factor : WrittenSign → ℤ
  | absent | plus => 1
  | minus => -1

lemma mem_chars {s : WrittenSign} {c : Char} (hc : c ∈ s.chars) : c = '+' ∨ c = '-' := by
  cases s with
  | absent => cases hc
  | plus => exact .inl (List.mem_singleton.mp hc)
  | minus => exact .inr (List.mem_singleton.mp hc)

/-- A sign is taken where no second sign follows. -/
lemma takeSign_chars (s : WrittenSign) {c : Char} (hplus : c ≠ '+') (hminus : c ≠ '-')
    (cs : List Char) : takeSign (s.chars ++ c :: cs) = (decide (s = minus), c :: cs) := by
  cases s with
  | absent =>
      rw [chars, List.nil_append, takeSign]
      · rfl
      · exact fun ds h => hminus (List.cons.inj h).1
      · exact fun ds h => hplus (List.cons.inj h).1
  | plus => rfl
  | minus => rfl

end WrittenSign

/-- A power of ten behind a number: a letter, a sign and digits. -/
structure WrittenExponent where
  capital : Bool
  sign : WrittenSign
  digits : Digits

namespace WrittenExponent

/-- The letter in front of an exponent. -/
def letter (e : WrittenExponent) : Char := if e.capital then 'E' else 'e'

/-- The text of an exponent. -/
def text (e : WrittenExponent) : List Char := e.letter :: (e.sign.chars ++ e.digits.chars)

/-- The integer that an exponent is. -/
def value (e : WrittenExponent) : ℤ := e.sign.factor * e.digits.value

lemma letter_eq (e : WrittenExponent) : e.letter = 'e' ∨ e.letter = 'E' := by
  rw [letter]
  split
  · exact .inr rfl
  · exact .inl rfl

lemma mem_text {e : WrittenExponent} {c : Char} (hc : c ∈ e.text) :
    isDecimal c = true ∨ c ∈ ['e', 'E', '+', '-'] := by
  rcases List.mem_cons.mp hc with rfl | hc
  · rcases e.letter_eq with h | h <;> simp [h]
  · rcases List.mem_append.mp hc with hc | hc
    · rcases WrittenSign.mem_chars hc with rfl | rfl <;> simp
    · exact .inl (e.digits.isDecimal_of_mem c hc)

lemma takeExponent?_text (e : WrittenExponent) : takeExponent? e.text = some (e.value, []) := by
  obtain ⟨c, cs, h, hc, -⟩ := e.digits.exists_eq_cons
  obtain ⟨v, vs, hvalues⟩ := List.exists_cons_of_ne_nil e.digits.values_ne_nil
  have hsign := e.sign.takeSign_chars (ne_of_isDecimal hc (by decide))
    (ne_of_isDecimal hc (by decide)) cs
  have hdigits := takeDigits_append e.digits endsDigits_nil
  have hvalue : ofDigitValues (v :: vs) = e.digits.value := by
    rw [← hvalues, Digits.ofDigitValues_values]
  rw [List.append_nil, hvalues] at hdigits
  rw [text, takeExponent?, if_pos e.letter_eq, h, hsign, ← h]
  simp only [hdigits, hvalue, value]
  cases e.sign <;> simp [WrittenSign.factor]

end WrittenExponent

/-- The text of the digits behind a point; without a point there are none. -/
def pointText : Option (List Digits) → List Char
  | none => []
  | some gs => '.' :: groupedChars gs

/-- A decimal numeral as it is written: `sign whole.fraction e exponent`. The digits on one side of
the point may be missing, and so may the point and the exponent. -/
structure WrittenDecimal where
  sign : WrittenSign
  whole : List Digits
  fraction : Option (List Digits)
  exponent : Option WrittenExponent
  whole_or_fraction : whole ≠ [] ∨ ∃ gs, fraction = some gs ∧ gs ≠ []

namespace WrittenDecimal

/-- The text of the exponent. -/
def exponentText (d : WrittenDecimal) : List Char := d.exponent.elim [] WrittenExponent.text

/-- The text behind the sign. -/
def unsignedText (d : WrittenDecimal) : List Char :=
  groupedChars d.whole ++ (pointText d.fraction ++ d.exponentText)

/-- The text of a decimal numeral. -/
def text (d : WrittenDecimal) : List Char := d.sign.chars ++ d.unsignedText

/-- The values of the digits behind the point. -/
def fractionValues (d : WrittenDecimal) : List ℕ := d.fraction.elim [] groupedValues

/-- The power of ten that is written behind the number, zero if there is none. -/
def exponentValue (d : WrittenDecimal) : ℤ := d.exponent.elim 0 WrittenExponent.value

/-- The signed integer that all digits write. -/
def mantissa (d : WrittenDecimal) : ℤ :=
  d.sign.factor * (Nat.ofDigits 10 (groupedValues d.whole ++ d.fractionValues).reverse : ℕ)

/-- The number that is written. -/
def value (d : WrittenDecimal) : ℚ :=
  d.mantissa * 10 ^ (d.exponentValue - d.fractionValues.length)

lemma mem_text {d : WrittenDecimal} {c : Char} (hc : c ∈ d.text) :
    isDecimal c = true ∨ c ∈ ['_', '.', 'e', 'E', '+', '-'] := by
  obtain ⟨sign, whole, fraction, exponent, _⟩ := d
  simp only [text, unsignedText, List.mem_append] at hc
  rcases hc with hc | hc | hc | hc
  · rcases WrittenSign.mem_chars hc with rfl | rfl <;> simp
  · rcases mem_groupedChars hc with h | rfl <;> simp [*]
  · cases fraction with
    | none => cases hc
    | some gs =>
        rcases List.mem_cons.mp hc with rfl | hc
        · simp
        · rcases mem_groupedChars hc with h | rfl <;> simp [*]
  · cases exponent with
    | none => cases hc
    | some e =>
        have h := e.mem_text hc
        simp only [List.mem_cons] at h ⊢
        tauto

lemma isBlank_of_mem_text {d : WrittenDecimal} {c : Char} (hc : c ∈ d.text) :
    isBlank c = false := by
  have hall : ['_', '.', 'e', 'E', '+', '-'].all (fun b => !isBlank b) = true := by decide
  rcases mem_text hc with h | h
  · exact isBlank_of_isDecimal h
  · simpa using List.all_eq_true.mp hall c h

lemma not_mem_text {d : WrittenDecimal} {c : Char} (hdigit : isDecimal c = false)
    (h : c ∉ ['_', '.', 'e', 'E', '+', '-']) : c ∉ d.text := by
  intro hc
  rcases mem_text hc with hc | hc
  · exact ne_of_isDecimal hc hdigit rfl
  · exact h hc

/-! ### Reading a written decimal -/

/-- What follows the digits behind the point. -/
lemma endsDigits_exponentText (d : WrittenDecimal) : EndsDigits d.exponentText := by
  rw [exponentText]
  cases d.exponent with
  | none => exact endsDigits_nil
  | some e =>
      rcases e.letter_eq with h | h
      · exact endsDigits_cons (by rw [h]; decide) (by rw [h]; decide) _
      · exact endsDigits_cons (by rw [h]; decide) (by rw [h]; decide) _

/-- What follows the digits in front of the point. -/
lemma endsDigits_pointText (d : WrittenDecimal) :
    EndsDigits (pointText d.fraction ++ d.exponentText) := by
  cases d.fraction with
  | none => exact d.endsDigits_exponentText
  | some gs => exact endsDigits_cons (by decide) (by decide) _

lemma exponentText_ne_point (d : WrittenDecimal) (cs : List Char) :
    d.exponentText ≠ '.' :: cs := by
  rw [exponentText]
  cases d.exponent with
  | none => exact (List.cons_ne_nil '.' cs).symm
  | some e =>
      intro h
      have hletter : e.letter = '.' := (List.cons.inj h).1
      rcases e.letter_eq with h | h
      · exact absurd (h.symm.trans hletter) (by decide)
      · exact absurd (h.symm.trans hletter) (by decide)

lemma takeFraction_pointText (d : WrittenDecimal) :
    takeFraction (pointText d.fraction ++ d.exponentText) = (d.fractionValues, d.exponentText) := by
  rw [fractionValues]
  cases d.fraction with
  | none =>
      rw [pointText, List.nil_append, takeFraction]
      · rfl
      · exact d.exponentText_ne_point
  | some gs => exact takeDigits_groupedChars gs d.endsDigits_exponentText

lemma takeExponent?_exponentText (d : WrittenDecimal) :
    takeExponent? d.exponentText = some (d.exponentValue, []) := by
  rw [exponentText, exponentValue]
  cases d.exponent with
  | none => rfl
  | some e => exact e.takeExponent?_text

/-- What follows the sign begins with a digit or with the point. -/
lemma exists_unsignedText_eq_cons (d : WrittenDecimal) :
    ∃ c cs, d.unsignedText = c :: cs ∧ c ≠ '+' ∧ c ≠ '-' := by
  obtain ⟨sign, whole, fraction, exponent, hdigit⟩ := d
  cases whole with
  | nil =>
      obtain ⟨gs, rfl, -⟩ := hdigit.resolve_left (by simp)
      exact ⟨'.', _, rfl, by decide, by decide⟩
  | cons g gs =>
      obtain ⟨c, cs, h, hc⟩ := exists_groupedChars_eq_cons g gs
      exact ⟨c, _, by rw [unsignedText, h]; rfl, ne_of_isDecimal hc (by decide),
        ne_of_isDecimal hc (by decide)⟩

/-- A numeral has a digit in front of the point or behind it. -/
lemma values_ne_nil (d : WrittenDecimal) :
    ((groupedValues d.whole).isEmpty && d.fractionValues.isEmpty) = false := by
  obtain ⟨sign, whole, fraction, exponent, hdigit⟩ := d
  rw [Bool.and_eq_false_iff, List.isEmpty_eq_false_iff, List.isEmpty_eq_false_iff]
  rcases hdigit with h | ⟨gs, rfl, h⟩
  · obtain ⟨g, gs, rfl⟩ := List.exists_cons_of_ne_nil h
    exact .inl (groupedValues_ne_nil g gs)
  · obtain ⟨g, gs, rfl⟩ := List.exists_cons_of_ne_nil h
    exact .inr (groupedValues_ne_nil g gs)

/-- The parts of a written decimal are read one after the other, and nothing is left over. -/
lemma decimal?_text (d : WrittenDecimal) :
    decimal? d.text = some ⟨d.sign = .minus, groupedValues d.whole, d.fractionValues,
      d.exponentValue⟩ := by
  obtain ⟨c, cs, h, hplus, hminus⟩ := d.exists_unsignedText_eq_cons
  have hdrop : d.text.dropWhile isBlank = d.text := dropWhile_isBlank fun c => isBlank_of_mem_text
  have hsign := d.sign.takeSign_chars hplus hminus cs
  have hwhole := takeDigits_groupedChars d.whole d.endsDigits_pointText
  rw [← h] at hsign
  rw [decimal?, hdrop, text, hsign, unsignedText]
  simp [hwhole, takeFraction_pointText, d.values_ne_nil, takeExponent?_exponentText]

lemma decimalValue?_text (d : WrittenDecimal) : decimalValue? d.text = some d.value := by
  rw [decimalValue?, decimal?_text, Option.map_some, Option.some_inj, Decimal.value,
    ofDigitValues_eq, value, mantissa]
  cases d.sign <;> simp [WrittenSign.factor]

/-- A written decimal is read as the number that it writes. -/
lemma numeral?_text (d : WrittenDecimal) : numeral? (String.ofList d.text) = some d.value := by
  have hspace : ' ' ∉ d.text := not_mem_text (by decide) (by decide)
  have hbar : '/' ∉ d.text := not_mem_text (by decide) (by decide)
  rw [numeral?_eq, String.toList_ofList, dropSpaces_eq_self hspace, compactNumeral?_of_not_mem hbar,
    decimalValue?_text]

/-! ### Printed integers and rationals -/

/-- An integer as it is printed. -/
def ofInt (n : ℤ) : WrittenDecimal where
  sign := if n < 0 then .minus else .absent
  whole := [.ofNat n.natAbs]
  fraction := none
  exponent := none
  whole_or_fraction := .inl (List.cons_ne_nil _ _)

lemma text_ofInt (n : ℤ) : (ofInt n).text = (toString n).toList := by
  have htext : (ofInt n).text
      = (ofInt n).sign.chars ++ (Digits.ofNat n.natAbs).chars := by
    simp [text, unsignedText, exponentText, ofInt, groupedChars_singleton, pointText]
  cases n with
  | ofNat n =>
      have hsign : (ofInt (Int.ofNat n)).sign = .absent := by simp [ofInt]
      have hprint : toString (Int.ofNat n) = toString n := rfl
      rw [htext, hsign, hprint, Digits.toList_toString]
      rfl
  | negSucc n =>
      have hsign : (ofInt (Int.negSucc n)).sign = .minus := by simp [ofInt]
      have hprint : toString (Int.negSucc n) = "-" ++ toString (n + 1) := rfl
      rw [htext, hsign, hprint, String.toList_append, Digits.toList_toString]
      rfl

lemma value_ofInt (n : ℤ) : (ofInt n).value = n := by
  have hdigits : Nat.ofDigits 10 (groupedValues [Digits.ofNat n.natAbs] ++ []).reverse
      = n.natAbs := by
    rw [groupedValues_singleton, List.append_nil]
    exact Digits.value_ofNat n.natAbs
  have hmantissa : (ofInt n).mantissa = n := by
    rw [mantissa, fractionValues]
    simp only [ofInt, Option.elim_none, hdigits]
    split
    · next h => rw [WrittenSign.factor, Int.ofNat_natAbs_of_nonpos h.le, neg_one_mul, neg_neg]
    · next h => rw [WrittenSign.factor, Int.natAbs_of_nonneg (not_lt.mp h), one_mul]
  rw [value, hmantissa]
  simp [exponentValue, fractionValues, ofInt]

end WrittenDecimal

/-- A printed integer is read back. -/
lemma numeral?_toString (n : ℤ) : numeral? (toString n) = some (n : ℚ) := by
  have hread := (WrittenDecimal.ofInt n).numeral?_text
  rwa [WrittenDecimal.text_ofInt, String.ofList_toList, WrittenDecimal.value_ofInt] at hread

lemma bar_not_mem_toString (n : ℤ) : '/' ∉ (toString n).toList := by
  rw [← WrittenDecimal.text_ofInt]
  exact WrittenDecimal.not_mem_text (by decide) (by decide)

/-- Two printed integers with a bar are read as their quotient. -/
lemma numeral?_toString_bar (p : ℤ) {q : ℤ} (hq : q ≠ 0) :
    numeral? (toString p ++ "/" ++ toString q) = some ((p : ℚ) / q) := by
  rw [numeral?_bar (bar_not_mem_toString p) (bar_not_mem_toString q), numeral?_toString,
    numeral?_toString]
  exact if_neg (Int.cast_ne_zero.mpr hq)

/-- A printed rational is read back. -/
lemma numeral?_rationalText (r : ℚ) : numeral? (rationalText r) = some r := by
  rw [rationalText]
  split
  · next h => rw [numeral?_toString, Rat.coe_int_num_of_den_eq_one h]
  · have hread := numeral?_toString_bar r.num (Int.natCast_ne_zero.mpr r.den_nz)
    rwa [Int.cast_natCast, Rat.num_div_den] at hread

/-- A rational is read back from a fraction that is not in lowest terms. -/
lemma numeral?_unreduced (r : ℚ) {k : ℕ} (hk : 0 < k) :
    numeral? (toString (k * r.num) ++ "/" ++ toString (k * r.den)) = some r := by
  have hk' : (k : ℚ) ≠ 0 := Nat.cast_ne_zero.mpr hk.ne'
  have hread := numeral?_toString_bar (k * r.num)
    (Int.natCast_ne_zero.mpr (Nat.mul_ne_zero hk.ne' r.den_nz))
  push_cast at hread
  rwa [mul_div_mul_left _ _ hk', Rat.num_div_den] at hread

end ExactAlgebra
