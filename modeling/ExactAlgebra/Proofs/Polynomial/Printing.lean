import ExactAlgebra.Polynomial.Printer
import ExactAlgebra.Proofs.Polynomial.Reading
import ExactAlgebra.Proofs.Rational.Sign

/-!
Reading a printed polynomial.

* **The printed sum.** `WrittenBody.printed`, `WrittenTerm.printed` and `WrittenSum.printed` write
  terms in the way of the printer: fractions in brackets in front of a power, the coefficient one
  and the exponent one left out. Spaces apart, their texts are what is printed
  (`WrittenSum.text_printed`).
* **What it stands for.** A printed term has the coefficient and the power that it was made from
  (`WrittenTerm.value_printed`, `WrittenTerm.degree_printed`), and the terms that a polynomial
  prints add up to it (`sum_descendingTerms`).

Main statement: `toText_readsBack`.
-/

open Polynomial

namespace ExactAlgebra

open Text

namespace Polynomial

/-! ### Printed terms -/

variable (v : WrittenName)

/-- A term without its sign as it is printed. -/
def WrittenBody.printed (c : ℚ) (n : ℕ) : WrittenBody where
  coefficient := if n ≠ 0 ∧ c = 1 then none else some ⟨.ofRat c, n ≠ 0 ∧ c.den ≠ 1⟩
  asterisk := false
  power := if n = 0 then none else some ⟨v, if n = 1 then none else some (.caret, .ofNat n)⟩
  coefficient_or_power := by by_cases hn : n = 0 <;> simp [hn]

/-- The text of a term is that of the body which is written in it: a coefficient `1` is left out in
front of a power, and a fraction stands in brackets. -/
lemma WrittenBody.text_printed {c : ℚ} (hc : 0 ≤ c) (n : ℕ) :
    (printed v c n).text = (termText (String.ofList v.chars) c n).toList := by
  have htail : n ≠ 0 → (printed v c n).tailText
      = (powerText (String.ofList v.chars) n).toList := by
    intro hn
    by_cases h1 : n = 1
    · simp [tailText, asteriskText, printed, WrittenPower.text, powerText, h1]
    · simp [tailText, asteriskText, printed, WrittenPower.text, powerText, hn, h1,
        ExponentMark.text, ← Digits.toList_toString]
  have hfactor : n ≠ 0 → (printed v c n).coefficient.elim [] WrittenCoefficient.text
      = (factorText c).toList := by
    intro hn
    by_cases h1 : c = 1
    · simp [printed, factorText, hn, h1]
    · by_cases hden : c.den = 1 <;>
        simp [printed, factorText, WrittenCoefficient.text, WrittenNumber.text_ofRat hc, hn, h1,
          hden]
  -- a constant is printed as a number; all else is a factor and a power
  by_cases hn : n = 0
  · simp [text, tailText, asteriskText, printed, termText, WrittenCoefficient.text,
      WrittenNumber.text_ofRat hc, hn]
  · rw [text, htail hn, hfactor hn, termText, if_neg hn, String.toList_append]

namespace WrittenTerm

/-- A term with its sign as it is printed. -/
def printed (t : ℚ × ℕ) : WrittenTerm :=
  ⟨if t.1 < 0 then .minus else .plus, .printed v t.1.abs t.2⟩

/-- A printed term has the degree that it is printed with. -/
lemma degree_printed (t : ℚ × ℕ) : (printed v t).degree = t.2 := by
  obtain ⟨c, n⟩ := t
  by_cases hn : n = 0
  · simp [printed, degree, WrittenBody.printed, hn]
  · by_cases h1 : n = 1
    · simp [printed, degree, WrittenBody.printed, WrittenPower.degree, h1]
    · simp [printed, degree, WrittenBody.printed, WrittenPower.degree, hn, h1,
        Digits.value_ofNat]

lemma name?_printed (t : ℚ × ℕ) :
    (printed v t).name? = if t.2 = 0 then none else some v.chars := by
  by_cases hn : t.2 = 0 <;> simp [printed, name?, WrittenBody.printed, hn]

/-- No printed denominator is zero. -/
lemma isDefined_printed (t : ℚ × ℕ) : (printed v t).IsDefined := by
  intro k hk
  simp only [printed, WrittenBody.printed] at hk
  split at hk
  · cases hk
  · cases hk
    rw [WrittenNumber.divisorValue_ofRat]
    exact t.1.abs.den_ne_zero

lemma value_printed (t : ℚ × ℕ) : (printed v t).value = t.1 := by
  obtain ⟨c, n⟩ := t
  have habs : (WrittenBody.printed v c.abs n).coefficient.elim (1 : ℚ) (fun k => k.number.value)
      = |c| := by
    rw [WrittenBody.printed, ratAbs_eq]
    split
    · next h => exact h.2.symm
    · exact WrittenNumber.value_ofRat (abs_nonneg c)
  rw [value, printed, habs]
  by_cases hc : c < 0
  · simp [hc, abs_of_neg hc]
  · simp [hc, abs_of_nonneg (not_lt.mp hc)]

end WrittenTerm

/-! ### Printed sums -/

/-- There are no spaces within a term. -/
lemma WrittenBody.dropSpaces_text (b : WrittenBody) : dropSpaces b.text = b.text :=
  dropSpaces_eq_self fun h => absurd (b.isTermCharacter h) (by decide)

lemma dropSpaces_termText (c : ℚ) (n : ℕ) :
    dropSpaces (termText (String.ofList v.chars) c.abs n).toList
      = (WrittenBody.printed v c.abs n).text := by
  have hc : 0 ≤ c.abs := by
    rw [ratAbs_eq]
    exact abs_nonneg c
  rw [← WrittenBody.text_printed v hc, WrittenBody.dropSpaces_text]

/-- A term that is not the first is printed with spaces around its sign, which are no part of it. -/
lemma dropSpaces_furtherTermText (t : ℚ × ℕ) :
    dropSpaces (furtherTermText (String.ofList v.chars) t).toList
      = (WrittenTerm.printed v t).text := by
  rw [furtherTermText, String.toList_append, dropSpaces_append, dropSpaces_termText,
    WrittenTerm.text, WrittenTerm.printed]
  split <;> rfl

namespace WrittenSum

/-- A sum as it is printed: a plus in front of the first term is left out. -/
def printed (t : ℚ × ℕ) (ts : List (ℚ × ℕ)) : WrittenSum :=
  ⟨if t.1 < 0 then some .minus else none, .printed v t.1.abs t.2, ts.map (.printed v)⟩

/-- The terms behind the first one, each with its sign, as they are printed. -/
lemma dropSpaces_flatMap_furtherTermText (ts : List (ℚ × ℕ)) :
    dropSpaces ((ts.map (furtherTermText (String.ofList v.chars))).flatMap String.toList)
      = (ts.map (WrittenTerm.printed v)).flatMap WrittenTerm.text := by
  induction ts with
  | nil => rfl
  | cons u ts ih =>
      rw [List.map_cons, List.flatMap_cons, dropSpaces_append, ih, dropSpaces_furtherTermText,
        List.map_cons, List.flatMap_cons]

/-- Without its spaces, a printed text is the text of a sum. -/
lemma text_printed (t : ℚ × ℕ) (ts : List (ℚ × ℕ)) :
    (printed v t ts).text
      = dropSpaces (termsText (String.ofList v.chars) (t :: ts)).toList := by
  rw [termsText, String.toList_append, String.toList_append, dropSpaces_append,
    dropSpaces_append, dropSpaces_termText, String.toList_join,
    dropSpaces_flatMap_furtherTermText, text, printed]
  split <;> rfl

lemma terms_printed (t : ℚ × ℕ) (ts : List (ℚ × ℕ)) :
    (printed v t ts).terms = (t :: ts).map (WrittenTerm.printed v) := by
  rw [terms, List.map_cons, WrittenTerm.printed, printed]
  split <;> rfl

/-- The only name in a printed sum is that of the variable, and it is there when a term is not
constant. -/
lemma mem_names_printed {t : ℚ × ℕ} {ts : List (ℚ × ℕ)} {x : List Char} :
    x ∈ (printed v t ts).names ↔ (∃ u ∈ t :: ts, u.2 ≠ 0) ∧ x = v.chars := by
  rw [names, terms_printed, List.filterMap_map, List.mem_filterMap]
  simp only [Function.comp_apply, WrittenTerm.name?_printed]
  constructor
  · rintro ⟨u, hu, h⟩
    split at h
    · cases h
    · next hn => exact ⟨⟨u, hu, hn⟩, (Option.some_inj.mp h).symm⟩
  · rintro ⟨⟨u, hu, hn⟩, rfl⟩
    exact ⟨u, hu, if_neg hn⟩

/-- A printed sum names one variable and divides by no zero. -/
lemma isMeaningful_printed (t : ℚ × ℕ) (ts : List (ℚ × ℕ)) : (printed v t ts).IsMeaningful where
  isDefined := by
    rw [terms_printed]
    intro u hu
    obtain ⟨u, -, rfl⟩ := List.mem_map.mp hu
    exact WrittenTerm.isDefined_printed v u
  name_eq := List.pairwise_of_forall_mem_list fun a ha b hb =>
    ((mem_names_printed v).mp ha).2.trans ((mem_names_printed v).mp hb).2.symm

lemma name?_printed (t : ℚ × ℕ) (ts : List (ℚ × ℕ)) :
    (printed v t ts).name?
      = if ∃ u ∈ t :: ts, u.2 ≠ 0 then some (String.ofList v.chars) else none := by
  have hmem := fun x => @mem_names_printed v t ts x
  rw [name?]
  cases hnames : (printed v t ts).names with
  | nil =>
      rw [if_neg fun h => ?_]
      · rfl
      · have := (hmem v.chars).mpr ⟨h, rfl⟩
        rw [hnames] at this
        cases this
  | cons x xs =>
      obtain ⟨h, rfl⟩ := (hmem x).mp (hnames ▸ List.mem_cons_self)
      rw [if_pos h]
      rfl

/-- A printed sum stands for the sum of its terms. -/
lemma toPoly_coefficients_printed (t : ℚ × ℕ) (ts : List (ℚ × ℕ)) :
    Coefficients.toPoly (printed v t ts).coefficients
      = ((t :: ts).map fun t => C t.1 * X ^ t.2).sum := by
  rw [toPoly_coefficients, terms_printed, List.map_map]
  simp only [Function.comp_def, WrittenTerm.value_printed, WrittenTerm.degree_printed]

end WrittenSum

/-! ### The terms of a polynomial -/

/-- Leaving out the terms that are zero leaves the sum. -/
lemma sum_filter_ne_zero (ts : List (ℚ × ℕ)) :
    ((ts.filter fun t => t.1 != 0).map fun t => C t.1 * X ^ t.2).sum
      = (ts.map fun t => (C t.1 * X ^ t.2 : ℚ[X])).sum := by
  induction ts with
  | nil => rfl
  | cons t ts ih =>
      by_cases h : t.1 = 0
      · simp [h, ih]
      · simp [bne_iff_ne.mpr h, ih]

/-- The nonzero terms add up to the polynomial. -/
lemma sum_descendingTerms (p : Polynomial) :
    (p.descendingTerms.map fun t => C t.1 * X ^ t.2).sum = p.toPoly := by
  rw [descendingTerms, List.map_reverse, List.sum_reverse, sum_filter_ne_zero,
    Coefficients.sum_zipIdx, pow_zero, one_mul, toPoly]

lemma mem_descendingTerms {p : Polynomial} {t : ℚ × ℕ} :
    t ∈ p.descendingTerms ↔ p.ascending[t.2]? = some t.1 ∧ t.1 ≠ 0 := by
  rw [descendingTerms, List.mem_reverse, List.mem_filter, List.mem_zipIdx_iff_getElem?,
    bne_iff_ne]

/-- The variable is printed from the first degree on. -/
lemma exists_mem_descendingTerms_iff (p : Polynomial) :
    (∃ t ∈ p.descendingTerms, t.2 ≠ 0) ↔ 1 ≤ p.degree := by
  constructor
  · rintro ⟨t, ht, hn⟩
    have hlt := (List.getElem?_eq_some_iff.mp (mem_descendingTerms.mp ht).1).1
    rw [degree]
    omega
  · intro hp
    have hlen : 2 ≤ p.ascending.length := by
      rw [degree] at hp
      omega
    have hne : p.ascending ≠ [] := fun h => by simp [h] at hlen
    refine ⟨(p.ascending.getLast hne, p.ascending.length - 1), mem_descendingTerms.mpr ⟨?_, ?_⟩,
      by dsimp only; omega⟩
    · rw [← List.getLast?_eq_getElem?, List.getLast?_eq_some_getLast hne]
    · intro h
      exact p.trimmed ((List.getLast?_eq_some_getLast hne).trans (congrArg some h))

/-- The printed coefficients are integers if all coefficients are. -/
lemma forall_mem_descendingTerms_iff (p : Polynomial) :
    (∀ t ∈ p.descendingTerms, t.1.den = 1) ↔ p.isIntegral = true := by
  rw [isIntegral, List.all_eq_true]
  constructor
  · intro h c hc
    obtain ⟨n, hn⟩ := List.mem_iff_getElem?.mp hc
    by_cases h0 : c = 0
    · simp [h0]
    · exact decide_eq_true (h (c, n) (mem_descendingTerms.mpr ⟨hn, h0⟩))
  · intro h t ht
    exact of_decide_eq_true (h t.1 (List.mem_of_getElem? (mem_descendingTerms.mp ht).1))

/-- What a polynomial prints are terms that add up to it; zero prints the constant term. -/
lemma exists_toText (p : Polynomial) :
    ∃ t ts, p.toText = termsText p.variableName (t :: ts)
      ∧ ((t :: ts).map fun t => C t.1 * X ^ t.2).sum = p.toPoly
      ∧ ((∃ u ∈ t :: ts, u.2 ≠ 0) ↔ 1 ≤ p.degree)
      ∧ ((∀ u ∈ t :: ts, u.1.den = 1) ↔ p.isIntegral = true) := by
  have hsum := p.sum_descendingTerms
  have hdegree := p.exists_mem_descendingTerms_iff
  have hintegral := p.forall_mem_descendingTerms_iff
  rw [toText]
  cases h : p.descendingTerms with
  | nil =>
      rw [h] at hsum hdegree hintegral
      refine ⟨(0, 0), [], ?_, by simpa using hsum, by simpa using hdegree,
        by simpa using hintegral⟩
      rfl
  | cons t ts =>
      rw [h] at hsum hdegree hintegral
      exact ⟨t, ts, rfl, hsum, hdegree, hintegral⟩

/-! ### Printing and reading -/

/-- A label that a text can show: none, the empty one, or a name of the grammar. -/
def HasReadableLabel (p : Polynomial) : Prop :=
  ∀ name ∈ p.label, name = "" ∨ ∃ v : WrittenName, String.ofList v.chars = name

lemma HasReadableLabel.exists_variableName {p : Polynomial} (h : p.HasReadableLabel) :
    ∃ v : WrittenName, String.ofList v.chars = p.variableName := by
  have hdefault : ∃ v : WrittenName, String.ofList v.chars = defaultVariable :=
    ⟨⟨'x', [], by decide, fun c hc => by cases hc⟩, rfl⟩
  rw [variableName]
  split
  · next name hname =>
      split
      · exact hdefault
      · next hne => exact (h name hname).resolve_left fun h0 => hne (by rw [h0]; rfl)
  · exact hdefault

/-- The label that the text of a polynomial shows: none if the polynomial is constant. -/
def shownLabel (p : Polynomial) : Option String :=
  if 1 ≤ p.degree then some p.variableName else none

/-- Spaces apart, the text of a polynomial is a written sum that stands for it. -/
lemma exists_writtenSum_toText {p : Polynomial} (h : p.HasReadableLabel) :
    ∃ w : WrittenSum, w.text = dropSpaces p.toText.toList ∧ w.IsMeaningful
      ∧ ofList w.coefficients w.name? = p.withLabel p.shownLabel := by
  obtain ⟨v, hv⟩ := h.exists_variableName
  obtain ⟨t, ts, htext, hsum, hdegree, -⟩ := p.exists_toText
  refine ⟨.printed v t ts, ?_, WrittenSum.isMeaningful_printed v t ts, ?_⟩
  · rw [WrittenSum.text_printed, hv, htext]
  · have hascending : (ofList (WrittenSum.printed v t ts).coefficients none).ascending
        = p.ascending := by
      rw [← toPoly_inj, toPoly_ofList, WrittenSum.toPoly_coefficients_printed, hsum]
    rw [WrittenSum.name?_printed, hv, withLabel, mk.injEq]
    exact ⟨hascending, if_congr hdegree rfl rfl⟩

/-- **A printed polynomial reads back.** The text of a polynomial whose label is a name, empty or
missing is read as the same coefficients, under the name that is shown if the degree is positive,
and under no label otherwise. -/
theorem toText_readsBack (p : Polynomial) (h : p.HasReadableLabel) :
    ofText? p.toText = .ok (p.withLabel p.shownLabel) := by
  obtain ⟨w, htext, hw, hp⟩ := exists_writtenSum_toText h
  rw [ofText?_of_text htext hw, hp]

/-- The name `e5` looks like the exponent of a number, and is read as a name. -/
theorem toText_readsBack_exponentName :
    (ofList [1 / 2, -1, 0, -3 / 4] (some "e5")).toText = "-(3/4)e5^3 - e5 + 1/2"
      ∧ ofText? (ofList [1 / 2, -1, 0, -3 / 4] (some "e5")).toText
        = .ok (ofList [1 / 2, -1, 0, -3 / 4] (some "e5")) := by
  have hlabel : (ofList [1 / 2, -1, 0, -3 / 4] (some "e5")).HasReadableLabel := by
    rintro name ⟨⟩
    exact .inr ⟨⟨'e', ['5'], by decide, List.forall_mem_singleton.mpr (by decide)⟩, rfl⟩
  refine ⟨by decide +kernel, (toText_readsBack _ hlabel).trans ?_⟩
  rw [shownLabel, if_pos (by decide +kernel)]
  rfl

end Polynomial

end ExactAlgebra
