import ExactAlgebra.Proofs.Outcome
import ExactAlgebra.Proofs.Rational.DecimalText
import ExactAlgebra.Value.Coercion

/-!
The numbers that texts denote.

A text is the number that its numeral is, and any other text is refused as an invalid argument
(`toRational?_text_eq_ok_iff`, `failure_text_iff`).

Main statement: `numberText_exact`.
-/

namespace ExactAlgebra.Value

open Text

lemma toRational?_text_eq_ok_iff {s : String} {r : ℚ} :
    (text s).toRational? = .ok r ↔ numeral? s = some r := by
  cases h : numeral? s <;> simp [toRational?, h]

/-- A text that is no number is refused as an invalid argument. -/
lemma failure_text_iff {s : String} :
    failure (text s).toRational? = some .invalidArgument ↔ numeral? s = none := by
  cases h : numeral? s <;> simp [toRational?, h, failure, Error.kind]

/-- **Texts are read as numbers without loss.**

* A rational is read back from the text that it prints, and also from a fraction that is not in
  lowest terms.
* A decimal numeral is the signed integer of all its digits, times ten to the power of its exponent
  less the number of digits behind the point.
* Two texts without a bar, each read as a number, are read with a bar between them as the quotient
  of the two, and are refused exactly when the second is zero.
* Texts that differ in spaces only, and a text with blanks around it, are read alike: they are
  numbers, and the same ones, or they are none. -/
theorem numberText_exact :
    ((∀ r : ℚ, (text (rationalText r)).toRational? = .ok r)
      ∧ ∀ (r : ℚ) (k : ℕ), 0 < k →
        (text (toString (k * r.num) ++ "/" ++ toString (k * r.den))).toRational? = .ok r)
    ∧ (∀ d : WrittenDecimal, (text (String.ofList d.text)).toRational?
      = .ok (d.mantissa * 10 ^ (d.exponentValue - d.fractionValues.length)))
    ∧ (∀ (u v : String) (p q : ℚ), '/' ∉ u.toList → '/' ∉ v.toList →
      (text u).toRational? = .ok p → (text v).toRational? = .ok q →
      (failure (text (u ++ "/" ++ v)).toRational? = some .invalidArgument ↔ q = 0)
        ∧ (q ≠ 0 → (text (u ++ "/" ++ v)).toRational? = .ok (p / q)))
    ∧ (∀ s t : String, s.toList.filter (· != ' ') = t.toList.filter (· != ' ') →
      ∀ r, (text s).toRational? = .ok r ↔ (text t).toRational? = .ok r)
    ∧ ∀ before s after : String, AllBlank before.toList → AllBlank after.toList →
      ∀ r, (text (before ++ s ++ after)).toRational? = .ok r ↔ (text s).toRational? = .ok r := by
  refine ⟨⟨fun r => ?_, fun r k hk => ?_⟩, fun d => ?_, fun u v p q hu hv hp hq => ?_,
    fun s t h r => ?_, fun before s after hbefore hafter r => ?_⟩
  · exact toRational?_text_eq_ok_iff.mpr (numeral?_rationalText r)
  · exact toRational?_text_eq_ok_iff.mpr (numeral?_unreduced r hk)
  · exact toRational?_text_eq_ok_iff.mpr d.numeral?_text
  · rw [toRational?_text_eq_ok_iff] at hp hq
    have hquotient : numeral? (u ++ "/" ++ v) = quotient? p q := by
      rw [numeral?_bar hu hv, hp, hq]
      rfl
    rw [failure_text_iff, toRational?_text_eq_ok_iff, hquotient, quotient?]
    split
    · next hzero => simp [hzero]
    · next hne => simp [hne]
  · rw [toRational?_text_eq_ok_iff, toRational?_text_eq_ok_iff, numeral?_congr_spaces h]
  · rw [toRational?_text_eq_ok_iff, toRational?_text_eq_ok_iff, numeral?_blanks hbefore hafter]

/-- Digits of two groups on either side of a point with a negative exponent, a fraction that is not
in lowest terms, a quotient of two decimal numerals with blanks around them, the divisor zero, and
a numeral with a space between two digits and blanks at its ends. -/
theorem numberText_exact_forms :
    (text "-1_250.7_5E-3").toRational? = .ok (-5003 / 4000)
      ∧ 0 < 6 ∧ (text "-18/24").toRational? = .ok (-3 / 4)
      ∧ '/' ∉ " 1.5\t".toList ∧ (text " 1.5\t").toRational? = .ok (3 / 2)
      ∧ '/' ∉ "-2e1 ".toList ∧ (text "-2e1 ").toRational? = .ok (-20)
      ∧ (text " 1.5\t/-2e1 ").toRational? = .ok (-3 / 40)
      ∧ '/' ∉ ".0".toList ∧ (text ".0").toRational? = .ok 0
      ∧ failure (text "-2e1 /.0").toRational? = some .invalidArgument
      ∧ "- 4 2".toList.filter (· != ' ') = "-42".toList.filter (· != ' ')
      ∧ AllBlank "\t".toList ∧ AllBlank "\n ".toList
      ∧ (text "\t- 4 2\n ").toRational? = .ok (-42) := by
  obtain ⟨⟨-, hunreduced⟩, hdecimal, hquotient, hspaces, hblanks⟩ := numberText_exact
  let d : WrittenDecimal := ⟨.minus, [.ofNat 1, .ofNat 250], some [.ofNat 7, .ofNat 5],
    some ⟨true, .minus, .ofNat 3⟩, .inl (List.cons_ne_nil _ _)⟩
  have htext : String.ofList d.text = "-1_250.7_5E-3" := by decide +kernel
  have hvalue : (d.mantissa : ℚ) * 10 ^ (d.exponentValue - d.fractionValues.length)
      = -5003 / 4000 := by decide +kernel
  have hgrouped := hdecimal d
  rw [htext, hvalue] at hgrouped
  have hp : (text " 1.5\t").toRational? = .ok (3 / 2) := by decide +kernel
  have hq : (text "-2e1 ").toRational? = .ok (-20) := by decide +kernel
  have hzero : (text ".0").toRational? = .ok 0 := by decide +kernel
  have hbar : '/' ∉ " 1.5\t".toList := by decide
  have hbar' : '/' ∉ "-2e1 ".toList := by decide
  have hbar₀ : '/' ∉ ".0".toList := by decide
  have hread := (hquotient _ _ _ _ hbar hbar' hp hq).2 (by decide)
  rw [show " 1.5\t" ++ "/" ++ "-2e1 " = " 1.5\t/-2e1 " by decide,
    show (3 / 2 / -20 : ℚ) = -3 / 40 by norm_num] at hread
  have hrefused := (hquotient _ _ _ _ hbar' hbar₀ hq hzero).1.mpr rfl
  rw [show "-2e1 " ++ "/" ++ ".0" = "-2e1 /.0" by decide] at hrefused
  have hunreduced' := hunreduced (-3 / 4) 6 (by decide)
  rw [show toString (((6 : ℕ) : ℤ) * (-3 / 4 : ℚ).num) ++ "/" ++ toString (6 * (-3 / 4 : ℚ).den)
    = "-18/24" by decide +kernel] at hunreduced'
  have hsame : "- 4 2".toList.filter (· != ' ') = "-42".toList.filter (· != ' ') := by decide
  have hbefore : AllBlank "\t".toList := List.all_eq_true.mp (by decide)
  have hafter : AllBlank "\n ".toList := List.all_eq_true.mp (by decide)
  have hspaced := (hblanks _ _ _ hbefore hafter _).mpr
    ((hspaces _ _ hsame (-42)).mpr (by decide +kernel))
  rw [show "\t" ++ "- 4 2" ++ "\n " = "\t- 4 2\n " by decide] at hspaced
  exact ⟨hgrouped, by decide, hunreduced', hbar, hp, hbar', hq, hread, hbar₀, hzero, hrefused,
    hsame, hbefore, hafter, hspaced⟩

end ExactAlgebra.Value
