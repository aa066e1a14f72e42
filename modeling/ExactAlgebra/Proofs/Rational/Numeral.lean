import ExactAlgebra.Proofs.Text.Digits
import ExactAlgebra.Rational.Numeral

/-!
Blanks and digits in the text of a number.

* **Blanks.** A text without blanks stays as it is when blanks are taken from its front
  (`dropWhile_isBlank`) and when spaces are taken out of it (`dropSpaces_eq_self`).
* **Digits.** A run of digits is taken whole where what follows does not continue it
  (`EndsDigits`, `takeDigits_append`), and a text in front of such a rest is taken as it would be
  alone (`takeDigits_append_of_endsDigits`).
-/

namespace ExactAlgebra

open Text

/-! ### Texts without blanks -/

/-- A text without blanks has none at its front. -/
lemma dropWhile_isBlank {cs : List Char} (h : ∀ c ∈ cs, isBlank c = false) :
    cs.dropWhile isBlank = cs := by
  cases cs with
  | nil => rfl
  | cons c cs => rw [List.dropWhile_cons, if_neg (by simp [h c List.mem_cons_self])]

/-- A text without spaces has none to lose. -/
lemma dropSpaces_eq_self {cs : List Char} (h : ' ' ∉ cs) : dropSpaces cs = cs :=
  List.filter_eq_self.mpr fun c hc => by
    rw [bne_iff_ne]
    rintro rfl
    exact h hc

/-- Spaces are taken out of two texts apart. -/
lemma dropSpaces_append (as bs : List Char) :
    dropSpaces (as ++ bs) = dropSpaces as ++ dropSpaces bs := List.filter_append ..

/-! ### Taking digits -/

/-- What follows a run of digits and does not continue it. -/
def EndsDigits (rest : List Char) : Prop := ∀ c ∈ rest.head?, isDecimal c = false ∧ c ≠ '_'

/-- The end of the text ends a run of digits. -/
lemma endsDigits_nil : EndsDigits [] := fun _ h => absurd h (by simp)

/-- Every other character ends a run of digits, the underscore apart, which may join two digits. -/
lemma endsDigits_cons {c : Char} (hdigit : isDecimal c = false) (hunderscore : c ≠ '_')
    (cs : List Char) : EndsDigits (c :: cs) := by
  intro b hb
  cases hb
  exact ⟨hdigit, hunderscore⟩

/-- Nothing is taken from a text that does not continue a run. -/
lemma takeMoreDigits_of_endsDigits {rest : List Char} (h : EndsDigits rest) :
    takeMoreDigits rest = ([], rest) := by
  cases rest with
  | nil => rfl
  | cons c rest =>
      obtain ⟨hdigit, hunderscore⟩ := h c rfl
      have hnone : digitValue? c = none := by simpa [isDecimal] using hdigit
      rw [takeMoreDigits]
      · rw [hnone]
      · exact fun b cs h => absurd h hunderscore

/-- A run goes on with a digit. -/
lemma takeMoreDigits_cons {c : Char} {d : ℕ} (hd : digitValue? c = some d) (cs : List Char) :
    takeMoreDigits (c :: cs) = (d :: (takeMoreDigits cs).1, (takeMoreDigits cs).2) := by
  rw [takeMoreDigits]
  · rw [hd]
  · rintro b cs rfl
    exact absurd (hd.symm.trans (by decide)) (Option.some_ne_none d)

/-- A run of digits is taken whole, whatever follows it. -/
lemma takeMoreDigits_digits {ds : List Char} (hds : ∀ c ∈ ds, isDecimal c = true)
    (rest : List Char) :
    takeMoreDigits (ds ++ rest)
      = (ds.filterMap digitValue? ++ (takeMoreDigits rest).1, (takeMoreDigits rest).2) := by
  induction ds with
  | nil => rfl
  | cons c ds ih =>
      obtain ⟨d, hd⟩ := Option.isSome_iff_exists.mp (hds c List.mem_cons_self)
      rw [List.cons_append, takeMoreDigits_cons hd,
        ih fun b hb => hds b (List.mem_cons_of_mem c hb), List.filterMap_cons_some hd,
        List.cons_append]

/-- A run of digits is taken whole and ends in front of what does not continue it. -/
lemma takeMoreDigits_append {ds rest : List Char} (hds : ∀ c ∈ ds, isDecimal c = true)
    (hrest : EndsDigits rest) :
    takeMoreDigits (ds ++ rest) = (ds.filterMap digitValue?, rest) := by
  rw [takeMoreDigits_digits hds, takeMoreDigits_of_endsDigits hrest, List.append_nil]

/-- An underscore without a digit behind it stays in the text. -/
lemma takeMoreDigits_underscore {rest : List Char} (hrest : EndsDigits rest) :
    takeMoreDigits ('_' :: rest) = ([], '_' :: rest) := by
  cases rest with
  | nil => rfl
  | cons c rest =>
      have hnone : digitValue? c = none := by simpa [isDecimal] using (hrest c rfl).1
      rw [takeMoreDigits, hnone]

/-- No run begins in front of what does not continue one. -/
lemma takeDigits_of_endsDigits {rest : List Char} (hrest : EndsDigits rest) :
    takeDigits rest = ([], rest) := by
  cases rest with
  | nil => rfl
  | cons c rest =>
      have hnone : digitValue? c = none := by simpa [isDecimal] using (hrest c rfl).1
      rw [takeDigits, hnone]

/-- What does not continue a run changes nothing of what is taken in front of it, and is left behind
the rest. -/
lemma takeMoreDigits_append_of_endsDigits {rest : List Char} (hrest : EndsDigits rest)
    (cs : List Char) :
    takeMoreDigits (cs ++ rest) = ((takeMoreDigits cs).1, (takeMoreDigits cs).2 ++ rest) := by
  fun_induction takeMoreDigits cs with
  -- by the run that is taken: it ends with the text, at an underscore or at another character
  | case1 => exact takeMoreDigits_of_endsDigits hrest
  | case2 c cs d hd ih => rw [List.cons_append, List.cons_append, takeMoreDigits, hd, ih]
  | case3 c cs hnone => rw [List.cons_append, List.cons_append, takeMoreDigits, hnone]
  | case4 c cs _ d hd ih => rw [List.cons_append, takeMoreDigits_cons hd, ih]
  | case5 c cs hpattern hnone =>
      by_cases hc : c = '_'
      · -- an underscore at the end of the text, which no digit follows
        subst hc
        obtain rfl : cs = [] := by
          cases cs with
          | nil => rfl
          | cons b cs => exact (hpattern b cs rfl rfl).elim
        exact takeMoreDigits_underscore hrest
      · exact takeMoreDigits_of_endsDigits (endsDigits_cons (by simp [isDecimal, hnone]) hc _)

/-- A text is read in front of such a rest as it would be alone. -/
lemma takeDigits_append_of_endsDigits {rest : List Char} (hrest : EndsDigits rest)
    (cs : List Char) :
    takeDigits (cs ++ rest) = ((takeDigits cs).1, (takeDigits cs).2 ++ rest) := by
  cases cs with
  | nil => exact takeDigits_of_endsDigits hrest
  | cons c cs =>
      rw [List.cons_append, takeDigits, takeDigits]
      cases digitValue? c with
      | none => rfl
      | some d => simp only [takeMoreDigits_append_of_endsDigits hrest]

/-- A numeral in front of such a rest is taken whole. -/
lemma takeDigits_append (d : Digits) {rest : List Char} (hrest : EndsDigits rest) :
    takeDigits (d.chars ++ rest) = (d.values, rest) := by
  obtain ⟨c, cs, h, hc, hcs⟩ := d.exists_eq_cons
  obtain ⟨v, hv⟩ := Option.isSome_iff_exists.mp hc
  rw [Digits.values, h, List.cons_append, takeDigits, hv]
  simp only [takeMoreDigits_append hcs hrest, List.filterMap_cons_some hv]

end ExactAlgebra
