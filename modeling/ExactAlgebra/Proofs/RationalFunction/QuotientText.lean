import ExactAlgebra.Proofs.RationalFunction.Printing

/-!
Reading a quotient of printed polynomials, each side with brackets around it or without.

* **Printed sides.** A printed polynomial with integral coefficients has neither brackets nor
  slashes (`isPlain_printedChars`), any other has a slash (`slash_mem_printedChars_iff`), and none
  ends in a bracket (`getLast?_printedChars`).
* **The three forms.** So the form of a bracketed quotient and that of a single pair of brackets do
  not apply unless both sides are enclosed (`parts?_eq_slashQuotient?`), and a text with a single
  slash is cut at the slash of the quotient (`slashQuotient?_enclosed`).

Main statement: `ofText?_quotientText`.
-/

namespace ExactAlgebra

open Text

namespace Polynomial

/-! ### The characters of a printed polynomial -/

/-- A text without brackets and slashes. -/
def IsPlain (cs : List Char) : Prop := ∀ c ∈ cs, c ≠ '(' ∧ c ≠ ')' ∧ c ≠ '/'

lemma IsPlain.append {as bs : List Char} (ha : IsPlain as) (hb : IsPlain bs) :
    IsPlain (as ++ bs) := List.forall_mem_append.mpr ⟨ha, hb⟩

/-- The last character of two joined texts is the last of one of them. -/
lemma not_mem_getLast?_append {c : Char} {as bs : List Char} (ha : c ∉ as.getLast?)
    (hb : c ∉ bs.getLast?) : c ∉ (as ++ bs).getLast? := by
  rw [List.getLast?_append]
  intro h
  rcases Option.or_eq_some_iff.mp h with h | ⟨-, h⟩
  · exact hb h
  · exact ha h

/-- Digits are neither brackets nor slashes. -/
lemma isPlain_digits (d : Digits) : IsPlain d.chars := by
  intro c hc
  have hdecimal := d.isDecimal_of_mem c hc
  refine ⟨?_, ?_, ?_⟩ <;> rintro rfl <;> exact absurd hdecimal (by decide)

lemma isPlain_tailText (b : WrittenBody) : IsPlain b.tailText := by
  obtain ⟨hopen, hclose, hslash⟩ := not_mem_tailText b
  refine fun c hc => ⟨?_, ?_, ?_⟩ <;> rintro rfl <;> contradiction

variable (v : WrittenName)

namespace WrittenBody

/-- An integer is printed without a divisor, and so without brackets. -/
lemma isPlain_text_printed {c : ℚ} (hc : c.den = 1) (n : ℕ) : IsPlain (printed v c n).text := by
  have hnumber : (WrittenNumber.ofRat c).text = (Digits.ofNat c.num.natAbs).chars := by
    simp [WrittenNumber.text, WrittenNumber.decimalText, WrittenNumber.ofRat, partText, hc]
  refine IsPlain.append ?_ (isPlain_tailText _)
  by_cases h1 : n ≠ 0 ∧ c = 1
  · simp [printed, h1, IsPlain]
  · simp only [printed, if_neg h1, Option.elim_some, WrittenCoefficient.text, hc, ne_eq,
      not_true_eq_false, and_false, decide_false, Bool.false_eq_true, if_false, hnumber]
    exact isPlain_digits _

/-- A fraction is printed with its divisor. -/
lemma slash_mem_text_printed {c : ℚ} (hc : c.den ≠ 1) (n : ℕ) : '/' ∈ (printed v c n).text := by
  have hcoefficient : (printed v c n).coefficient = some ⟨.ofRat c, n ≠ 0 ∧ c.den ≠ 1⟩ :=
    if_neg fun h => hc (by rw [h.2]; rfl)
  have hnumber : '/' ∈ (WrittenNumber.ofRat c).text := by
    simp [WrittenNumber.text, WrittenNumber.ofRat, partText, hc]
  rw [text, hcoefficient, Option.elim_some, WrittenCoefficient.text]
  split <;> simp [hnumber]

/-- Brackets stand around a fraction in front of a power, and the power ends the text. -/
lemma getLast?_text_printed (c : ℚ) (n : ℕ) : ')' ∉ (printed v c n).text.getLast? := by
  intro h
  rw [text, List.getLast?_append] at h
  by_cases hn : n = 0
  · have hmem : ')' ∈ (WrittenNumber.ofRat c).text := by
      refine List.mem_of_mem_getLast? ?_
      simpa [tailText, asteriskText, printed, WrittenCoefficient.text, hn] using h
    exact (not_mem_number _).2 hmem
  · have hne : (printed v c n).tailText ≠ [] := by
      simp [tailText, asteriskText, printed, WrittenPower.text, WrittenName.chars, hn]
    rw [List.getLast?_eq_some_getLast hne, Option.some_or] at h
    exact (not_mem_tailText _).2.1 (List.mem_of_mem_getLast?
      ((List.getLast?_eq_some_getLast hne).trans h))

end WrittenBody

namespace WrittenSum

variable {t : ℚ × ℕ} {ts : List (ℚ × ℕ)}

lemma den_abs (c : ℚ) : c.abs.den = c.den := by rw [ratAbs_eq, Rat.den_abs_eq_den]

lemma isPlain_text_printed (h : ∀ u ∈ t :: ts, u.1.den = 1) : IsPlain (printed v t ts).text := by
  have hsign : ∀ s : TermSign, IsPlain [s.char] := by
    intro s c hc
    obtain rfl := List.mem_singleton.mp hc
    cases s <;> decide
  have hbody : ∀ u ∈ t :: ts, IsPlain (WrittenBody.printed v u.1.abs u.2).text := fun u hu =>
    WrittenBody.isPlain_text_printed v ((den_abs u.1).trans (h u hu)) u.2
  refine IsPlain.append (IsPlain.append ?_ (hbody t List.mem_cons_self)) ?_
  · rw [printed]
    split
    · exact hsign .minus
    · exact fun c hc => absurd hc List.not_mem_nil
  · intro c hc
    obtain ⟨w, hw, hc⟩ := List.mem_flatMap.mp hc
    obtain ⟨u, hu, rfl⟩ := List.mem_map.mp hw
    exact (hsign _).append (hbody u (List.mem_cons_of_mem t hu)) c hc

lemma slash_mem_text_printed {u : ℚ × ℕ} (hu : u ∈ t :: ts) (h : u.1.den ≠ 1) :
    '/' ∈ (printed v t ts).text := by
  have hbody : '/' ∈ (WrittenBody.printed v u.1.abs u.2).text :=
    WrittenBody.slash_mem_text_printed v (by rwa [den_abs]) u.2
  rw [text, List.mem_append]
  rcases List.mem_cons.mp hu with rfl | hu
  · exact .inl (List.mem_append_right _ hbody)
  · refine .inr (List.mem_flatMap.mpr ⟨_, List.mem_map.mpr ⟨u, hu, rfl⟩, ?_⟩)
    exact List.mem_cons_of_mem _ hbody

lemma getLast?_flatMap_printed (ts : List (ℚ × ℕ)) :
    ')' ∉ ((ts.map (WrittenTerm.printed v)).flatMap WrittenTerm.text).getLast? := by
  induction ts with
  | nil => simp
  | cons u ts ih =>
      refine not_mem_getLast?_append ?_ ih
      rw [WrittenTerm.text, ← List.singleton_append]
      refine not_mem_getLast?_append ?_ (WrittenBody.getLast?_text_printed v _ _)
      exact fun h => (WrittenTerm.printed v u).sign.char_ne (c := ')') rfl (Option.some_inj.mp h)

/-- No printed sum ends in a closing bracket: the bracket of a coefficient has a power behind it. -/
lemma getLast?_text_printed (t : ℚ × ℕ) (ts : List (ℚ × ℕ)) :
    ')' ∉ (printed v t ts).text.getLast? := by
  refine not_mem_getLast?_append ?_ (getLast?_flatMap_printed v ts)
  refine not_mem_getLast?_append ?_ (WrittenBody.getLast?_text_printed v _ _)
  rw [printed]
  split <;> simp [TermSign.char]

end WrittenSum

variable {p : Polynomial}

/-- The text of a polynomial without spaces. -/
def printedChars (p : Polynomial) : List Char := dropSpaces p.toText.toList

/-- What is printed of a polynomial is a written sum, and its coefficients are integers when those
of the polynomial are. -/
lemma exists_printedChars (h : p.HasReadableLabel) :
    ∃ v t ts, p.printedChars = (WrittenSum.printed v t ts).text
      ∧ ((∀ u ∈ t :: ts, u.1.den = 1) ↔ p.isIntegral = true) := by
  obtain ⟨v, hv⟩ := h.exists_variableName
  obtain ⟨t, ts, htext, -, -, hintegral⟩ := p.exists_toText
  exact ⟨v, t, ts, by rw [printedChars, htext, WrittenSum.text_printed, hv], hintegral⟩

lemma isPlain_printedChars (h : p.HasReadableLabel) (hp : p.isIntegral = true) :
    IsPlain p.printedChars := by
  obtain ⟨v, t, ts, htext, hintegral⟩ := exists_printedChars h
  rw [htext]
  exact WrittenSum.isPlain_text_printed v (hintegral.mpr hp)

/-- A printed polynomial shows a slash exactly when it is not integral. -/
lemma slash_mem_printedChars_iff (h : p.HasReadableLabel) :
    '/' ∈ p.printedChars ↔ p.isIntegral = false := by
  refine ⟨fun hslash => ?_, fun hp => ?_⟩
  · rw [← Bool.not_eq_true]
    exact fun hp => (isPlain_printedChars h hp '/' hslash).2.2 rfl
  · obtain ⟨v, t, ts, htext, hintegral⟩ := exists_printedChars h
    rw [← Bool.not_eq_true, ← hintegral] at hp
    push Not at hp
    obtain ⟨u, hu, hden⟩ := hp
    rw [htext]
    exact WrittenSum.slash_mem_text_printed v hu hden

lemma getLast?_printedChars (h : p.HasReadableLabel) : ')' ∉ p.printedChars.getLast? := by
  obtain ⟨v, t, ts, htext, -⟩ := exists_printedChars h
  rw [htext]
  exact WrittenSum.getLast?_text_printed v t ts

end Polynomial

namespace RationalFunction

open ExactAlgebra.Polynomial

/-! ### The form of a single slash -/

/-- A text with brackets around it, or as it stands. -/
def enclosed (brackets : Bool) (cs : List Char) : List Char :=
  if brackets then '(' :: (cs ++ [')']) else cs

/-- Brackets add no slash. -/
lemma count_slash_enclosed (brackets : Bool) (cs : List Char) :
    (enclosed brackets cs).count '/' = cs.count '/' := by
  cases brackets <;> simp [enclosed]

lemma dropWhile_isBracket {cs : List Char} (h : IsPlain cs) : cs.dropWhile isBracket = cs := by
  cases cs with
  | nil => rfl
  | cons c cs =>
      obtain ⟨hopen, hclose, -⟩ := h c List.mem_cons_self
      rw [List.dropWhile_cons, if_neg (by simp [isBracket, hopen, hclose])]

/-- Brackets around a text without brackets are taken off. -/
lemma stripBrackets_enclosed (brackets : Bool) {cs : List Char} (h : IsPlain cs) :
    stripBrackets (enclosed brackets cs) = cs := by
  have hreverse : IsPlain cs.reverse := fun c hc => h c (List.mem_reverse.mp hc)
  cases brackets with
  | false =>
      rw [enclosed, if_neg Bool.false_ne_true, stripBrackets, dropWhile_isBracket h,
        dropWhile_isBracket hreverse, List.reverse_reverse]
  | true =>
      have hopen : (enclosed true cs).dropWhile isBracket = (cs ++ [')']).dropWhile isBracket := rfl
      have hclose : ((cs ++ [')']).reverse).dropWhile isBracket = cs.reverse := by
        rw [List.reverse_append]
        exact dropWhile_isBracket hreverse
      cases cs with
      | nil => rfl
      | cons c cs =>
          obtain ⟨hc, hc', -⟩ := h c List.mem_cons_self
          have hhead : (c :: cs ++ [')']).dropWhile isBracket = c :: cs ++ [')'] := by
            rw [List.cons_append, List.dropWhile_cons, if_neg (by simp [isBracket, hc, hc'])]
          rw [stripBrackets, hopen, hhead, hclose, List.reverse_reverse]

variable {n d : List Char} (left right : Bool)

/-- A single slash separates the sides. -/
lemma slashQuotient?_enclosed (hn : IsPlain n) (hd : IsPlain d) :
    slashQuotient? (enclosed left n ++ '/' :: enclosed right d) = some (n, d) := by
  have hcount : ∀ cs : List Char, IsPlain cs → cs.count '/' = 0 := fun cs hcs =>
    List.count_eq_zero.mpr fun h => (hcs '/' h).2.2 rfl
  have hleft : ∀ c ∈ enclosed left n, (c != '/') = true := by
    intro c hc
    rw [bne_iff_ne]
    rintro rfl
    have hpos := List.count_pos_iff.mpr hc
    rw [count_slash_enclosed, hcount n hn] at hpos
    exact Nat.lt_irrefl 0 hpos
  rw [slashQuotient?, List.count_append, List.count_cons_self, count_slash_enclosed,
    count_slash_enclosed, hcount n hn, hcount d hd, if_pos rfl,
    List.takeWhile_append_of_pos hleft, List.dropWhile_append_of_pos hleft]
  simp [stripBrackets_enclosed _ hn, stripBrackets_enclosed _ hd]

/-- A slash of a coefficient is one too many. -/
lemma slashQuotient?_eq_none (h : '/' ∈ n ∨ '/' ∈ d) :
    slashQuotient? (enclosed left n ++ '/' :: enclosed right d) = none := by
  rw [slashQuotient?, List.count_append, List.count_cons_self, count_slash_enclosed,
    count_slash_enclosed, ← List.count_pos_iff, ← List.count_pos_iff] at *
  exact if_neg (by omega)

/-! ### The forms with brackets -/

lemma unbracket?_eq_none {cs : List Char} (h : ')' ∉ cs.getLast?) : unbracket? cs = none := by
  rw [unbracket?.eq_def]
  split
  · exact if_neg fun hlast => h (List.mem_getLast?_cons hlast)
  · rfl

/-- A text that is not in brackets is read in the form of a single slash. -/
lemma parts?_of_unbracket?_eq_none {cs : List Char} (h : unbracket? cs = none) :
    parts? cs = slashQuotient? cs := by
  rw [parts?, bracketedQuotient?, bracketed?, h]
  simp

/-- Brackets that match from the inside of an open one do not match from the outside. -/
lemma bracketsMatch_append_of_inside {cs rest : List Char} (h : bracketsMatch true cs = true) :
    bracketsMatch false (cs ++ rest) = false := by
  induction cs with
  | nil => cases h
  | cons c cs ih =>
      rw [bracketsMatch] at h
      rw [List.cons_append, bracketsMatch]
      split_ifs at h ⊢
      · simp at h
      · rfl
      · exact ih h

/-- A bracket of the numerator and one around the denominator are not a pair. -/
lemma parts?_of_openBracket {n d : WrittenSum} (hn : ')' ∉ n.text.getLast?) {cs : List Char}
    (hcs : n.text = '(' :: cs) :
    parts? ('(' :: (cs ++ '/' :: '(' :: d.text ++ [')']))
      = slashQuotient? ('(' :: (cs ++ '/' :: '(' :: d.text ++ [')'])) := by
  have hnewline : '\n' ∉ cs ++ '/' :: '(' :: d.text := by
    have hn' : '\n' ∉ n.text := n.not_mem_text (by decide)
    have hd' : '\n' ∉ d.text := d.not_mem_text (by decide)
    rw [hcs] at hn'
    simp_all
  -- the outer brackets are taken off, and what is left is not cut: no bracket closes before a slash
  have hkeeps : KeepsBrackets (cs ++ '/' :: '(' :: d.text) := by
    have htail : KeepsBrackets ('(' :: cs) := hcs ▸ n.keepsBrackets_text
    refine List.isChain_append.mpr ⟨htail.tail, ?_, fun b hb _ _ hclose => ?_⟩
    · exact List.isChain_cons_cons.mpr ⟨fun h => absurd h (by decide),
        List.isChain_cons.mpr ⟨fun _ _ h => absurd h (by decide), d.keepsBrackets_text⟩⟩
    · rw [hcs] at hn
      exact absurd (List.mem_getLast?_cons (hclose ▸ hb)) hn
  -- neither is it a text in brackets: the first bracket is closed before the end
  have hmatch : bracketsMatch false (cs ++ '/' :: '(' :: d.text) = false := by
    have hinside : bracketsMatch false ('(' :: cs) = true := hcs ▸ bracketsMatch_text n
    exact bracketsMatch_append_of_inside hinside
  rw [parts?, bracketedQuotient?_of_not_mem hnewline, splitQuotient?_eq_none hkeeps, bracketed?,
    unbracket?_append, Option.filter_some, hmatch]
  simp

/-- Unless both sides are enclosed, the forms with brackets do not apply. -/
lemma parts?_eq_slashQuotient? {n d : WrittenSum} (hn : ')' ∉ n.text.getLast?)
    (hd : ')' ∉ d.text.getLast?) {left right : Bool} (h : (left && right) = false) :
    parts? (enclosed left n.text ++ '/' :: enclosed right d.text)
      = slashQuotient? (enclosed left n.text ++ '/' :: enclosed right d.text) := by
  cases right with
  | false =>
      refine parts?_of_unbracket?_eq_none (unbracket?_eq_none ?_)
      have henclosed : enclosed false d.text = d.text := rfl
      rwa [henclosed, List.append_cons, List.getLast?_append_of_ne_nil _ d.text_ne_nil]
  | true =>
      obtain rfl : left = false := by simpa using h
      obtain ⟨c, cs, hcs⟩ := List.exists_cons_of_ne_nil n.text_ne_nil
      by_cases hc : c = '('
      · simpa [enclosed, hcs, hc] using parts?_of_openBracket (d := d) hn (hc ▸ hcs)
      · refine parts?_of_unbracket?_eq_none ?_
        rw [enclosed, if_neg Bool.false_ne_true, hcs, List.cons_append, unbracket?.eq_def]
        split
        · next h => exact absurd (List.cons.inj h).1 hc
        · rfl

/-! ### Reading -/

/-- A text in brackets, or as it stands. -/
def sideText (brackets : Bool) (s : String) : String := if brackets then "(" ++ s ++ ")" else s

/-- The text of a quotient, with brackets around either side or without. -/
def quotientText (left right : Bool) (n d : String) : String :=
  sideText left n ++ "/" ++ sideText right d

/-- The spaces around the slash are dropped, and those within the parts. -/
lemma dropSpaces_quotientText (left right : Bool) (n d : String) :
    dropSpaces (quotientText left right n d).toList
      = enclosed left (dropSpaces n.toList) ++ '/' :: enclosed right (dropSpaces d.toList) := by
  have hside : ∀ (brackets : Bool) (s : String),
      dropSpaces (sideText brackets s).toList = enclosed brackets (dropSpaces s.toList) := by
    intro brackets s
    cases brackets with
    | false => rfl
    | true => simp [sideText, enclosed, dropSpaces]
  simp only [quotientText, String.toList_append, dropSpaces_append, hside, List.append_assoc]
  rfl

/-- Each part is read back as its polynomial, with the label that is shown. -/
lemma ofText?_printedChars {p : Polynomial} (h : p.HasReadableLabel) :
    Polynomial.ofText? (String.ofList p.printedChars) = .ok (p.withLabel p.shownLabel) := by
  obtain ⟨w, htext, hw, hp⟩ := exists_writtenSum_toText h
  rw [printedChars, ← htext, ofText?_text hw, hp]

/-- The sides of a quotient of printed polynomials, which are found if both are in brackets or no
coefficient has a slash of its own. -/
lemma parts?_printedChars {n d : Polynomial} (hn : n.HasReadableLabel) (hd : d.HasReadableLabel)
    (left right : Bool) :
    parts? (enclosed left n.printedChars ++ '/' :: enclosed right d.printedChars)
      = if (left && right) || (n.isIntegral && d.isIntegral) then
          some (n.printedChars, d.printedChars)
        else none := by
  have hnlast := getLast?_printedChars hn
  have hdlast := getLast?_printedChars hd
  obtain ⟨v, hv, -⟩ := exists_writtenSum_toText hn
  obtain ⟨w, hw, -⟩ := exists_writtenSum_toText hd
  rw [← printedChars] at hv hw
  -- brackets on both sides are read for all parts; otherwise the slash has to be the only one
  cases hboth : left && right with
  | true =>
      obtain ⟨rfl, rfl⟩ := Bool.and_eq_true_iff.mp hboth
      rw [Bool.true_or, if_pos rfl, ← hv, ← hw, ← parts?_quotient v w]
      simp [enclosed]
  | false =>
      rw [Bool.false_or, ← hv, ← hw, parts?_eq_slashQuotient? (hv ▸ hnlast) (hw ▸ hdlast) hboth, hv,
        hw]
      split_ifs with hintegral
      · obtain ⟨hnintegral, hdintegral⟩ := Bool.and_eq_true_iff.mp hintegral
        exact slashQuotient?_enclosed left right (isPlain_printedChars hn hnintegral)
          (isPlain_printedChars hd hdintegral)
      · refine slashQuotient?_eq_none left right ?_
        rw [slash_mem_printedChars_iff hn, slash_mem_printedChars_iff hd]
        exact Bool.and_eq_false_iff.mp (Bool.eq_false_iff.mpr hintegral)

/-- **A quotient of printed polynomials is not misread.** With brackets around both sides it is read
as the numerator over the denominator. With brackets missing it is read in the same way if all
coefficients are integers, and is refused otherwise. -/
theorem ofText?_quotientText {n d : Polynomial} (hn : n.HasReadableLabel)
    (hd : d.HasReadableLabel) (hzero : d.isZero = false) :
    ∃ r : RationalFunction, r.numerator.coefficients = n.coefficients
      ∧ r.denominator.coefficients = d.coefficients
      ∧ ∀ left right : Bool,
          (ofText? (quotientText left right n.toText d.toText) = .ok r
            ∨ failure (ofText? (quotientText left right n.toText d.toText))
              = some .invalidArgument)
          ∧ (ofText? (quotientText left right n.toText d.toText) = .ok r
            ↔ (left = true ∧ right = true) ∨ (n.isIntegral = true ∧ d.isIntegral = true)) := by
  refine ⟨⟨n.withLabel n.shownLabel, d.withLabel d.shownLabel, hzero⟩, rfl, rfl,
    fun left right => ?_⟩
  have hread := parts?_printedChars hn hd left right
  rw [printedChars, printedChars, ← dropSpaces_quotientText, ← printedChars, ← printedChars]
    at hread
  rw [← Bool.and_eq_true_iff, ← Bool.and_eq_true_iff, ← Bool.or_eq_true_iff]
  split_ifs at hread with hform
  · have hok : ofText? (quotientText left right n.toText d.toText)
        = .ok ⟨n.withLabel n.shownLabel, d.withLabel d.shownLabel, hzero⟩ := by
      rw [ofText?, hread]
      dsimp only
      rw [ofText?_printedChars hn, ofText?_printedChars hd]
      exact dif_pos hzero
    exact ⟨.inl hok, iff_of_true hok hform⟩
  · have hrefused : ofText? (quotientText left right n.toText d.toText)
        = .error (.unreadableFunction (quoted (String.ofList
          (dropSpaces (quotientText left right n.toText d.toText).toList)))) := by
      rw [ofText?, hread]
    rw [hrefused]
    exact ⟨.inr rfl, iff_of_false (fun h => by cases h) hform⟩

/-- Fractions need both pairs of brackets, and `/(` of the denominator is not the end of a
bracketed numerator. -/
theorem ofText?_quotientText_halves :
    let n := ofList [-3, 1 / 2] (some "t")
    let d := ofList [1, 0, 2 / 3] none
    quotientText false true n.toText d.toText = "(1/2)t - 3/((2/3)x^2 + 1)"
      ∧ failure (ofText? (quotientText false true n.toText d.toText)) = some .invalidArgument
      ∧ ∃ r : RationalFunction, ofText? (quotientText true true n.toText d.toText) = .ok r
        ∧ r.numerator.coefficients = n.coefficients
        ∧ r.denominator.coefficients = d.coefficients := by
  intro n d
  have hn : n.HasReadableLabel := by
    rintro name ⟨⟩
    exact .inr ⟨⟨'t', [], by decide, by simp⟩, rfl⟩
  have hd : d.HasReadableLabel := by
    rintro name ⟨⟩
  obtain ⟨r, hnum, hden, hread⟩ := ofText?_quotientText hn hd (by decide +kernel)
  refine ⟨by decide +kernel, (hread false true).1.resolve_left ?_,
    r, (hread true true).2.mpr (.inl ⟨rfl, rfl⟩), hnum, hden⟩
  rw [(hread false true).2]
  decide +kernel

end RationalFunction

end ExactAlgebra
