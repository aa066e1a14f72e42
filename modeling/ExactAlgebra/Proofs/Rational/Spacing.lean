import Mathlib.Data.List.DropRight
import Mathlib.Data.List.TakeDrop
import ExactAlgebra.Proofs.Rational.Numeral

/-!
Blanks, spaces and the bar in a numeral.

* **Blanks.** Each part of a decimal numeral ends where a blank follows, so that blanks behind a
  text stay in what is left over (`takeDigits_append_of_endsDigits`, `takeSign_append_blanks`,
  `takeFraction_append_blanks`, `takeExponent?_append_blanks`), and blanks on either side do not
  change a decimal numeral (`decimal?_blanks_append`, `decimal?_append_blanks`).
* **The bar.** A text without a bar is a decimal numeral, and a text with a bar the quotient of its
  two sides (`compactNumeral?_of_not_mem`, `compactNumeral?_bar`), so blanks around it do not matter
  either (`compactNumeral?_blanks`).
* **Spaces.** A numeral is read off its text without spaces (`numeral?_eq`).
-/

namespace ExactAlgebra

open Text

/-- A text of blanks only. -/
def AllBlank (bs : List Char) : Prop := ∀ c ∈ bs, isBlank c = true

/-! ### Blanks behind the parts of a decimal numeral -/

lemma isBlank_head {bs : List Char} (hbs : AllBlank bs) : ∀ c ∈ bs.head?, isBlank c = true :=
  fun c hc => hbs c (List.mem_of_mem_head? hc)

/-- Blanks end a run of digits. -/
lemma endsDigits_of_allBlank {bs : List Char} (hbs : AllBlank bs) : EndsDigits bs := by
  intro c hc
  have hblank := isBlank_head hbs c hc
  constructor
  · by_contra hdigit
    rw [isBlank_of_isDecimal (by simpa using hdigit)] at hblank
    exact absurd hblank (by decide)
  · rintro rfl
    exact absurd hblank (by decide)

variable {bs : List Char}

/-- A character that is no blank does not begin a text of blanks. -/
lemma ne_cons_of_allBlank (hbs : AllBlank bs) {c : Char} (hc : isBlank c = false)
    (cs : List Char) : bs ≠ c :: cs := by
  rintro rfl
  exact absurd (hbs c List.mem_cons_self) (by simp [hc])

/-- The sign, the fraction and the exponent are taken in front of blanks as they are at the end of
the text. -/
lemma takeSign_append_blanks (hbs : AllBlank bs) (cs : List Char) :
    takeSign (cs ++ bs) = ((takeSign cs).1, (takeSign cs).2 ++ bs) := by
  cases cs with
  | nil =>
      have hminus := ne_cons_of_allBlank hbs (c := '-') (by decide)
      have hplus := ne_cons_of_allBlank hbs (c := '+') (by decide)
      rw [List.nil_append, takeSign]
      · rfl
      · exact hminus
      · exact hplus
  | cons c cs => unfold takeSign; split <;> simp_all

lemma takeFraction_append_blanks (hbs : AllBlank bs) (cs : List Char) :
    takeFraction (cs ++ bs) = ((takeFraction cs).1, (takeFraction cs).2 ++ bs) := by
  cases cs with
  | nil =>
      rw [List.nil_append, takeFraction]
      · rfl
      · exact ne_cons_of_allBlank hbs (by decide)
  | cons c cs =>
      by_cases hc : c = '.'
      · subst hc
        exact takeDigits_append_of_endsDigits (endsDigits_of_allBlank hbs) cs
      · rw [List.cons_append, takeFraction, takeFraction]
        all_goals simp [hc]

lemma takeExponent?_append_blanks (hbs : AllBlank bs) (cs : List Char) :
    takeExponent? (cs ++ bs) = (takeExponent? cs).map fun e => (e.1, e.2 ++ bs) := by
  cases cs with
  | nil =>
      cases bs with
      | nil => rfl
      | cons b bs =>
          -- a blank is not the letter of an exponent
          have hletter : ¬(b = 'e' ∨ b = 'E') := by
            have hblank := hbs b List.mem_cons_self
            rintro (rfl | rfl)
            · exact absurd hblank (by decide)
            · exact absurd hblank (by decide)
          simp only [List.nil_append, takeExponent?, if_neg hletter, Option.map_some]
  | cons c cs =>
      rw [List.cons_append, takeExponent?, takeExponent?]
      split
      · simp only [takeSign_append_blanks hbs,
          takeDigits_append_of_endsDigits (endsDigits_of_allBlank hbs)]
        rcases takeDigits (takeSign cs).2 with ⟨_ | ⟨d, ds⟩, rest⟩
        · rfl
        · rfl
      · rfl

/-! ### Blanks around a decimal numeral -/

/-- Blanks in front of a numeral are skipped. -/
lemma decimal?_blanks_append {as : List Char} (has : AllBlank as) (cs : List Char) :
    decimal? (as ++ cs) = decimal? cs := by
  rw [decimal?, decimal?, List.dropWhile_append_of_pos has]

/-- Blanks alone are no numeral. -/
lemma decimal?_of_allBlank (hbs : AllBlank bs) : decimal? bs = none := by
  have hskip := decimal?_blanks_append hbs []
  rwa [List.append_nil] at hskip

/-- Blanks behind a numeral are left over by every part of it. -/
lemma decimal?_append_blanks (hbs : AllBlank bs) (cs : List Char) :
    decimal? (cs ++ bs) = decimal? cs := by
  rcases hcs : cs.dropWhile isBlank with _ | ⟨c, ds⟩
  · have hblank : AllBlank cs := List.dropWhile_eq_nil_iff.mp hcs
    rw [decimal?_blanks_append hblank, decimal?_of_allBlank hbs, decimal?_of_allBlank hblank]
  · have hdrop : (cs ++ bs).dropWhile isBlank = cs.dropWhile isBlank ++ bs := by
      rw [List.dropWhile_append, hcs]
      rfl
    have hall : bs.all isBlank = true := List.all_eq_true.mpr hbs
    simp only [decimal?, hdrop, takeSign_append_blanks hbs,
      takeDigits_append_of_endsDigits (endsDigits_of_allBlank hbs),
      takeFraction_append_blanks hbs, takeExponent?_append_blanks hbs]
    split
    · rfl
    · generalize takeExponent? _ = e
      cases e with
      | none => rfl
      | some e => simp [hall]

lemma decimalValue?_blanks_append {as : List Char} (has : AllBlank as) (cs : List Char) :
    decimalValue? (as ++ cs) = decimalValue? cs := by
  rw [decimalValue?, decimalValue?, decimal?_blanks_append has]

/-- Blanks around a numeral do not count. -/
lemma decimalValue?_append_blanks (hbs : AllBlank bs) (cs : List Char) :
    decimalValue? (cs ++ bs) = decimalValue? cs := by
  rw [decimalValue?, decimalValue?, decimal?_append_blanks hbs]

/-! ### The bar -/

lemma all_ne_of_not_mem {c : Char} {cs : List Char} (h : c ∉ cs) :
    ∀ b ∈ cs, (b != c) = true := by
  intro b hb
  rw [bne_iff_ne]
  rintro rfl
  exact h hb

/-- A text without a bar is a decimal numeral. -/
lemma compactNumeral?_of_not_mem {cs : List Char} (h : '/' ∉ cs) :
    compactNumeral? cs = decimalValue? cs := by
  have hall := all_ne_of_not_mem h
  rw [compactNumeral?, List.span_eq_takeWhile_dropWhile, List.takeWhile_eq_self_iff.mpr hall,
    List.dropWhile_eq_nil_iff.mpr hall]

/-- The text on either side of the first bar is a decimal numeral. -/
lemma compactNumeral?_bar {ps : List Char} (h : '/' ∉ ps) (qs : List Char) :
    compactNumeral? (ps ++ '/' :: qs)
      = (do quotient? (← decimalValue? ps) (← decimalValue? qs)) := by
  have hall := all_ne_of_not_mem h
  rw [compactNumeral?, List.span_eq_takeWhile_dropWhile, List.takeWhile_append_of_pos hall,
    List.dropWhile_append_of_pos hall]
  simp

lemma not_mem_of_allBlank (hbs : AllBlank bs) : '/' ∉ bs := fun h =>
  absurd (hbs '/' h) (by decide)

/-- Blanks around a numeral do not change it. -/
lemma compactNumeral?_blanks {as : List Char} (has : AllBlank as) (hbs : AllBlank bs)
    (cs : List Char) : compactNumeral? (as ++ cs ++ bs) = compactNumeral? cs := by
  have has' := not_mem_of_allBlank has
  have hbs' := not_mem_of_allBlank hbs
  by_cases h : '/' ∈ cs
  · obtain ⟨ps, qs, rfl, hps⟩ := List.eq_append_cons_of_mem h
    have hsplit : as ++ (ps ++ '/' :: qs) ++ bs = as ++ ps ++ '/' :: (qs ++ bs) := by simp
    rw [hsplit, compactNumeral?_bar (by simp [has', hps]), compactNumeral?_bar hps,
      decimalValue?_blanks_append has, decimalValue?_append_blanks hbs]
  · rw [compactNumeral?_of_not_mem h, compactNumeral?_of_not_mem (by simp [h, has', hbs']),
      decimalValue?_append_blanks hbs, decimalValue?_blanks_append has]

/-! ### Spaces -/

/-- Stripping a text takes blanks from its two ends. -/
lemma exists_blanks_strip (cs : List Char) :
    ∃ as bs, AllBlank as ∧ AllBlank bs ∧ cs = as ++ strip cs ++ bs := by
  refine ⟨cs.takeWhile isBlank, (cs.dropWhile isBlank).rtakeWhile isBlank,
    fun c => List.mem_takeWhile_imp, fun c => List.mem_rtakeWhile_imp, ?_⟩
  have hstrip : strip cs = (cs.dropWhile isBlank).rdropWhile isBlank := rfl
  rw [hstrip, List.append_assoc, List.rdropWhile_append_rtakeWhile, List.takeWhile_append_dropWhile]

/-- Without spaces, blanks are still blanks. -/
lemma AllBlank.dropSpaces (hbs : AllBlank bs) : AllBlank (dropSpaces bs) :=
  fun c hc => hbs c (List.mem_of_mem_filter hc)

/-- A numeral is read off its text without spaces; no other blank has to be removed. -/
lemma numeral?_eq (s : String) : numeral? s = compactNumeral? (dropSpaces s.toList) := by
  obtain ⟨as, bs, has, hbs, h⟩ := exists_blanks_strip s.toList
  conv_rhs => rw [h, dropSpaces_append, dropSpaces_append,
    compactNumeral?_blanks has.dropSpaces hbs.dropSpaces]
  rfl

/-- Texts that differ in spaces only are the same numeral. -/
lemma numeral?_congr_spaces {s t : String} (h : dropSpaces s.toList = dropSpaces t.toList) :
    numeral? s = numeral? t := by
  rw [numeral?_eq, numeral?_eq, h]

/-- A number is read alike with blanks around it. -/
lemma numeral?_blanks {before after : String} (hbefore : AllBlank before.toList)
    (hafter : AllBlank after.toList) (s : String) :
    numeral? (before ++ s ++ after) = numeral? s := by
  rw [numeral?_eq, numeral?_eq, String.toList_append, String.toList_append, dropSpaces_append,
    dropSpaces_append, compactNumeral?_blanks hbefore.dropSpaces hafter.dropSpaces]

/-- Two numerals without a bar make, with a bar between them, the numeral of their quotient. -/
lemma numeral?_bar {u v : String} (hu : '/' ∉ u.toList) (hv : '/' ∉ v.toList) :
    numeral? (u ++ "/" ++ v) = (do quotient? (← numeral? u) (← numeral? v)) := by
  have hu' : '/' ∉ dropSpaces u.toList := fun h => hu (List.mem_of_mem_filter h)
  have hv' : '/' ∉ dropSpaces v.toList := fun h => hv (List.mem_of_mem_filter h)
  have hsplit : dropSpaces (u ++ "/" ++ v).toList
      = dropSpaces u.toList ++ '/' :: dropSpaces v.toList := by
    rw [String.toList_append, String.toList_append, dropSpaces_append, dropSpaces_append,
      List.append_assoc]
    rfl
  rw [numeral?_eq, numeral?_eq, numeral?_eq, hsplit, compactNumeral?_bar hu',
    compactNumeral?_of_not_mem hu', compactNumeral?_of_not_mem hv']

end ExactAlgebra
