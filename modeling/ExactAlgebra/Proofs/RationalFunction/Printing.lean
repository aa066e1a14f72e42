import ExactAlgebra.Proofs.Polynomial.Printing
import ExactAlgebra.RationalFunction.Reader

/-!
Reading a printed rational function.

* **Brackets.** The brackets of a written sum match and are not nested
  (`bracketsMatch_text`), and no slash follows a closing bracket
  (`WrittenSum.keepsBrackets_text`).
* **Parts.** So the last `)/(` of a bracketed quotient stands between its two sides
  (`splitQuotient?_append`), and there is none in a single pair of brackets
  (`splitQuotient?_eq_none`). `parts?_quotient` and `parts?_bracketed` give the two sides back.

Main statement: `toText_readsBack_unreduced`.
-/

namespace ExactAlgebra

open Text

namespace Polynomial

/-! ### Brackets and slashes -/

/-- There are no brackets in a number. -/
lemma not_mem_number (n : WrittenNumber) : '(' ∉ n.text ∧ ')' ∉ n.text := by
  constructor <;> intro hc <;> rcases WrittenNumber.mem_text hc with h | h | h <;>
    exact absurd h (by decide)

/-- There are no brackets and no slashes behind a coefficient. -/
lemma not_mem_tailText (b : WrittenBody) :
    '(' ∉ b.tailText ∧ ')' ∉ b.tailText ∧ '/' ∉ b.tailText := by
  refine ⟨?_, ?_, ?_⟩ <;> exact fun hc => absurd (b.isPowerCharacter hc) (by decide)

/-- Whether no slash follows a closing bracket. -/
def KeepsBrackets (cs : List Char) : Prop := cs.IsChain fun a b => a = ')' → b ≠ '/'

/-- A text without closing brackets, or without slashes, holds no closing bracket before a slash. -/
lemma keepsBrackets_of_not_mem_bracket {cs : List Char} (h : ')' ∉ cs) : KeepsBrackets cs := by
  refine List.Pairwise.isChain (List.pairwise_of_forall_mem_list fun a ha b _ => ?_)
  rintro rfl
  exact absurd ha h

lemma keepsBrackets_of_not_mem_slash {cs : List Char} (h : '/' ∉ cs) : KeepsBrackets cs := by
  refine List.Pairwise.isChain (List.pairwise_of_forall_mem_list fun a _ b hb _ => ?_)
  rintro rfl
  exact h hb

/-- The property passes to joined texts, unless a slash stands where they meet. -/
lemma KeepsBrackets.append {as bs : List Char} (ha : KeepsBrackets as) (hb : KeepsBrackets bs)
    (h : '/' ∉ bs.head?) : KeepsBrackets (as ++ bs) := by
  refine List.isChain_append.mpr ⟨ha, hb, fun x _ y hy _ => ?_⟩
  rintro rfl
  exact h hy

lemma WrittenCoefficient.keepsBrackets_text (k : WrittenCoefficient) : KeepsBrackets k.text := by
  have hnumber := not_mem_number k.number
  rw [WrittenCoefficient.text]
  split
  · refine KeepsBrackets.append (keepsBrackets_of_not_mem_bracket ?_)
      (keepsBrackets_of_not_mem_slash (by decide)) (by simp)
    simp [hnumber.2]
  · exact keepsBrackets_of_not_mem_bracket hnumber.2

lemma WrittenBody.keepsBrackets_text (b : WrittenBody) : KeepsBrackets b.text := by
  have htail : '/' ∉ b.tailText := (not_mem_tailText b).2.2
  have hcoefficient : KeepsBrackets (b.coefficient.elim [] WrittenCoefficient.text) := by
    cases b.coefficient with
    | none => exact List.isChain_nil
    | some k => exact k.keepsBrackets_text
  exact hcoefficient.append (keepsBrackets_of_not_mem_slash htail)
    fun h => htail (List.mem_of_mem_head? h)

/-- A bracket within a term closes a coefficient, behind which no slash follows. -/
lemma WrittenTerm.keepsBrackets_text (t : WrittenTerm) : KeepsBrackets t.text :=
  List.isChain_cons.mpr ⟨fun _ _ h => absurd h (t.sign.char_ne rfl),
    t.body.keepsBrackets_text⟩

lemma keepsBrackets_flatMap_text (ts : List WrittenTerm) :
    KeepsBrackets (ts.flatMap WrittenTerm.text) := by
  induction ts with
  | nil => exact List.isChain_nil
  | cons t ts ih =>
      exact t.keepsBrackets_text.append ih
        fun h => absurd (isSign_head?_flatMap_text ts _ h) (by decide)

/-- No slash follows a bracket of a written sum. -/
lemma WrittenSum.keepsBrackets_text (w : WrittenSum) : KeepsBrackets w.text := by
  have hfirst : KeepsBrackets ((w.sign?.map TermSign.char).toList ++ w.first.text) := by
    cases w.sign? with
    | none => exact w.first.keepsBrackets_text
    | some s => exact WrittenTerm.keepsBrackets_text ⟨s, w.first⟩
  exact hfirst.append (keepsBrackets_flatMap_text w.rest)
    fun h => absurd (isSign_head?_flatMap_text w.rest _ h) (by decide)

end Polynomial

namespace RationalFunction

open ExactAlgebra.Polynomial

/-! ### Matching brackets -/

/-- Texts without brackets do not count. -/
lemma bracketsMatch_append {cs : List Char} (h : '(' ∉ cs ∧ ')' ∉ cs) (inside : Bool)
    (rest : List Char) : bracketsMatch inside (cs ++ rest) = bracketsMatch inside rest := by
  induction cs with
  | nil => rfl
  | cons c cs ih =>
      simp only [List.mem_cons, not_or] at h
      obtain ⟨⟨hopen, hcs⟩, hclose, hcs'⟩ := h
      rw [List.cons_append, bracketsMatch, if_neg (Ne.symm hopen), if_neg (Ne.symm hclose),
        ih ⟨hcs, hcs'⟩]

/-- A coefficient closes the bracket that it opens. -/
lemma bracketsMatch_coefficient (k : WrittenCoefficient) (rest : List Char) :
    bracketsMatch false (k.text ++ rest) = bracketsMatch false rest := by
  rw [WrittenCoefficient.text]
  split
  · rw [List.cons_append, List.cons_append, List.append_assoc, bracketsMatch, if_pos rfl,
      bracketsMatch_append (not_mem_number k.number)]
    rfl
  · exact bracketsMatch_append (not_mem_number k.number) false rest

lemma bracketsMatch_body (b : WrittenBody) (rest : List Char) :
    bracketsMatch false (b.text ++ rest) = bracketsMatch false rest := by
  obtain ⟨hopen, hclose, -⟩ := not_mem_tailText b
  have htail := bracketsMatch_append ⟨hopen, hclose⟩ false rest
  rw [WrittenBody.text, List.append_assoc]
  cases b.coefficient with
  | none => exact htail
  | some k => exact (bracketsMatch_coefficient k _).trans htail

lemma bracketsMatch_term (t : WrittenTerm) (rest : List Char) :
    bracketsMatch false (t.text ++ rest) = bracketsMatch false rest := by
  rw [WrittenTerm.text, List.cons_append, bracketsMatch, if_neg (t.sign.char_ne rfl),
    if_neg (t.sign.char_ne rfl), bracketsMatch_body]

/-- The brackets of a written sum match. -/
lemma bracketsMatch_flatMap_text (ts : List WrittenTerm) :
    bracketsMatch false (ts.flatMap WrittenTerm.text) = true := by
  induction ts with
  | nil => rfl
  | cons t ts ih => rw [List.flatMap_cons, bracketsMatch_term, ih]

/-- The brackets of a written sum match and are not nested. -/
lemma bracketsMatch_text (w : WrittenSum) : bracketsMatch false w.text = true := by
  rw [WrittenSum.text, List.append_assoc, ← bracketsMatch_flatMap_text w.rest]
  cases w.sign? with
  | none => exact bracketsMatch_body w.first _
  | some s => exact bracketsMatch_term ⟨s, w.first⟩ _

/-! ### The parts of a bracketed text -/

/-- A text is not cut at its first character unless the cut stands there. -/
lemma splitQuotient?_cons_eq_none {c : Char} {cs : List Char} (hcs : splitQuotient? cs = none)
    (h : ∀ rest, cs ≠ ')' :: '/' :: '(' :: rest) : splitQuotient? (c :: cs) = none := by
  rw [splitQuotient?.eq_def]
  simp only [hcs]
  split
  · next d rest => exact absurd rfl (h _)
  · rfl

lemma splitQuotient?_cons_of_eq_some {c : Char} {cs n d : List Char}
    (h : splitQuotient? cs = some (n, d)) : splitQuotient? (c :: cs) = some (c :: n, d) := by
  rw [splitQuotient?.eq_def]
  simp only [h]

/-- A text is not cut when no closing bracket stands before a slash. -/
lemma splitQuotient?_eq_none {cs : List Char} (h : KeepsBrackets cs) :
    splitQuotient? cs = none := by
  induction cs with
  | nil => rfl
  | cons c cs ih =>
      refine splitQuotient?_cons_eq_none (ih h.tail) ?_
      rintro rest rfl
      exact (List.isChain_cons_cons.mp h.tail).1 rfl rfl

/-- The last `)/(` is the one in front of which all brackets are kept. -/
lemma splitQuotient?_append {n d : List Char} (hn : n ≠ []) (hd : d ≠ [])
    (h : KeepsBrackets d) :
    splitQuotient? (n ++ ')' :: '/' :: '(' :: d) = some (n, d) := by
  induction n with
  | nil => exact absurd rfl hn
  | cons c n ih =>
      cases n with
      | nil =>
          have hnone : splitQuotient? (')' :: '/' :: '(' :: d) = none := by
            have hopen : KeepsBrackets ('/' :: '(' :: d) := by
              refine List.isChain_cons_cons.mpr ⟨fun h => absurd h (by decide), ?_⟩
              exact List.isChain_cons.mpr ⟨fun _ _ h => absurd h (by decide), h⟩
            refine splitQuotient?_cons_eq_none (splitQuotient?_eq_none hopen) ?_
            rintro rest ⟨⟩
          obtain ⟨b, bs, rfl⟩ := List.exists_cons_of_ne_nil hd
          rw [List.singleton_append, splitQuotient?, hnone]
      | cons b n =>
          exact splitQuotient?_cons_of_eq_some (ih (List.cons_ne_nil b n))

/-- The outer brackets are taken off. -/
lemma unbracket?_append (cs : List Char) : unbracket? ('(' :: (cs ++ [')'])) = some cs := by
  rw [unbracket?, if_pos List.getLast?_concat, List.dropLast_concat]

lemma bracketedQuotient?_of_not_mem {cs : List Char} (h : '\n' ∉ cs) :
    bracketedQuotient? ('(' :: (cs ++ [')'])) = splitQuotient? cs := by
  rw [bracketedQuotient?, unbracket?_append, if_neg (by simp [h]), Option.bind_some]

/-- The sides of a bracketed quotient of sums. -/
lemma parts?_quotient (n d : WrittenSum) :
    parts? ('(' :: (n.text ++ ')' :: '/' :: '(' :: d.text ++ [')'])) = some (n.text, d.text) := by
  have hn : '\n' ∉ n.text := n.not_mem_text (by decide)
  have hd : '\n' ∉ d.text := d.not_mem_text (by decide)
  have hnewline : '\n' ∉ n.text ++ ')' :: '/' :: '(' :: d.text := by simp [hn, hd]
  rw [parts?, bracketedQuotient?_of_not_mem hnewline,
    splitQuotient?_append n.text_ne_nil d.text_ne_nil d.keepsBrackets_text]
  rfl

/-- A bracketed sum stands over the denominator one. -/
lemma parts?_bracketed (n : WrittenSum) :
    parts? ('(' :: (n.text ++ [')'])) = some (n.text, ['1']) := by
  rw [parts?, bracketedQuotient?_of_not_mem (n.not_mem_text (by decide)),
    splitQuotient?_eq_none n.keepsBrackets_text, bracketed?, unbracket?_append,
    Option.filter_some, if_pos (bracketsMatch_text n)]
  rfl

/-! ### Printing and reading -/

/-- The text of a sum alone is read as what it stands for. -/
lemma ofText?_text {w : WrittenSum} (hw : w.IsMeaningful) :
    Polynomial.ofText? (String.ofList w.text) = .ok (ofList w.coefficients w.name?) :=
  ofText?_of_text (by
    rw [String.toList_ofList, dropSpaces_eq_self (w.not_mem_text (by decide))]) hw

/-- The denominator that is not printed is the one that is read. -/
lemma ofText?_one {p : Polynomial} (h : (p == one none) = true) :
    Polynomial.ofText? (String.ofList ['1']) = .ok (p.withLabel p.shownLabel) := by
  have hread : Polynomial.ofText? (String.ofList ['1']) = .ok (one none) := by decide +kernel
  obtain ⟨as, label, trimmed⟩ := p
  obtain rfl : as = [1] := beq_iff.mp h
  exact hread

/-- **A printed rational function reads back unreduced.** The text of a rational function whose
labels are names, empty or missing is read as the same numerator over the same denominator, each
under the label that its own text shows. -/
theorem toText_readsBack_unreduced (r : RationalFunction) (hn : r.numerator.HasReadableLabel)
    (hd : r.denominator.HasReadableLabel) :
    ofText? r.toText = .ok ⟨r.numerator.withLabel r.numerator.shownLabel,
      r.denominator.withLabel r.denominator.shownLabel, r.denominator_ne_zero⟩ := by
  obtain ⟨n, hntext, hnmeaningful, hnread⟩ := exists_writtenSum_toText hn
  obtain ⟨d, hdtext, hdmeaningful, hdread⟩ := exists_writtenSum_toText hd
  have hparts : ∃ ds, parts? (dropSpaces r.toText.toList) = some (n.text, ds)
      ∧ Polynomial.ofText? (String.ofList ds)
        = .ok (r.denominator.withLabel r.denominator.shownLabel) := by
    by_cases hone : (r.denominator == one none) = true
    · refine ⟨['1'], ?_, ofText?_one hone⟩
      rw [toText, if_pos hone, String.toList_append, String.toList_append, dropSpaces_append,
        dropSpaces_append, ← hntext]
      exact parts?_bracketed n
    · refine ⟨d.text, ?_, (ofText?_text hdmeaningful).trans (by rw [hdread])⟩
      simp only [toText, if_neg hone, String.toList_append, dropSpaces_append, ← hntext, ← hdtext]
      rw [← parts?_quotient n d]
      simp [dropSpaces]
  obtain ⟨ds, hds, hdenominator⟩ := hparts
  rw [ofText?, hds]
  dsimp only
  rw [ofText?_text hnmeaningful, hdenominator, hnread]
  exact dif_pos r.denominator_ne_zero

/-- Brackets of coefficients stand next to those of the quotient, and the two variables have
names of their own. -/
theorem toText_readsBack_twoNames :
    let r : RationalFunction := ⟨ofList [-1 / 5, 1 / 2] (some "x2"),
      ofList [0, 0, 2 / 3] (some "t"), by decide +kernel⟩
    r.toText = "((1/2)x2 - 1/5)/((2/3)t^2)" ∧ ofText? r.toText = .ok r := by
  intro r
  have hn : r.numerator.HasReadableLabel := by
    rintro name ⟨⟩
    exact .inr ⟨⟨'x', ['2'], by decide, List.forall_mem_singleton.mpr (by decide)⟩, rfl⟩
  have hd : r.denominator.HasReadableLabel := by
    rintro name ⟨⟩
    exact .inr ⟨⟨'t', [], by decide, by simp⟩, rfl⟩
  refine ⟨by decide +kernel, (toText_readsBack_unreduced r hn hd).trans ?_⟩
  decide +kernel

end RationalFunction

end ExactAlgebra
