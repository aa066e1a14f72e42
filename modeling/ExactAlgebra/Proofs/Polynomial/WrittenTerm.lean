import Mathlib.Data.List.TakeWhile
import ExactAlgebra.Proofs.Polynomial.Grammar

/-!
Reading a single term of a polynomial text.

Every part of a term is read by a function that takes it off the front of a text and returns
what follows. For each of them one lemma says that it takes a written part whole, where what
follows cannot continue it (`takeNumber_text`, `takeCoefficient?_text`, `power?_text`), and one
that it takes nothing else (`exists_takeNumber`, `exists_takeCoefficient?`, `exists_power?`).

Main statements: the term that the reader makes of a written term is the one that is written
(`ofPiece?_text`), and it accepts nothing else (`exists_body_of_ofPiece?`).
-/

namespace ExactAlgebra

open Text

/-! ### Maximal runs -/

/-- A run is taken whole when what follows does not continue it. -/
lemma takeWhile_append_eq {p : Char → Bool} {cs rest : List Char} (hcs : ∀ c ∈ cs, p c = true)
    (hrest : ∀ c ∈ rest.head?, p c = false) : (cs ++ rest).takeWhile p = cs := by
  rw [List.takeWhile_append_of_pos hcs]
  cases rest with
  | nil => simp
  | cons c rest => simp [hrest c rfl]

/-- Behind such a run exactly what follows it is left. -/
lemma dropWhile_append_eq {p : Char → Bool} {cs rest : List Char} (hcs : ∀ c ∈ cs, p c = true)
    (hrest : ∀ c ∈ rest.head?, p c = false) : (cs ++ rest).dropWhile p = rest := by
  rw [List.dropWhile_append_of_pos hcs]
  cases rest with
  | nil => simp
  | cons c rest => simp [hrest c rfl]

namespace Polynomial

/-! ### Reading a number -/

/-- What follows a coefficient and does not belong to it. -/
def EndsCoefficient (rest : List Char) : Prop :=
  ∀ c ∈ rest.head?, isDecimal c = false ∧ c ≠ '.' ∧ c ≠ '/' ∧ c ≠ '('

namespace Term

variable {separator c : Char} {cs rest : List Char}

/-- A part that may be missing begins with its separator, or what follows it comes first. -/
lemma head?_partText_append {part : Option Digits}
    (hc : c ∈ (partText separator part ++ rest).head?) : c = separator ∨ c ∈ rest.head? := by
  cases part with
  | none => exact .inr hc
  | some d => cases hc; exact .inl rfl

/-- A written part is taken whole, and nothing is taken where none is written. -/
lemma takePart_partText (part : Option Digits)
    (hrest : ∀ c ∈ rest.head?, isDecimal c = false ∧ c ≠ separator) :
    takePart separator (partText separator part ++ rest) = (partText separator part, rest) := by
  cases part with
  | none =>
      match rest with
      | [] => rfl
      | [c] => rfl
      | c :: d :: cs => exact if_neg fun h => (hrest c rfl).2 h.1
  -- the separator has a digit behind it, so that all digits are taken with it
  | some d =>
      obtain ⟨b, bs, h, hb, hbs⟩ := d.exists_eq_cons
      have hstop : ∀ c ∈ rest.head?, isDecimal c = false := fun c hc => (hrest c hc).1
      rw [partText, h, List.cons_append, List.cons_append, takePart, if_pos ⟨rfl, hb⟩,
        takeWhile_append_eq hbs hstop, dropWhile_append_eq hbs hstop]

/-- What is taken is a written part. -/
lemma exists_takePart (separator : Char) (cs : List Char) :
    ∃ part : Option Digits, (takePart separator cs).1 = partText separator part
      ∧ cs = partText separator part ++ (takePart separator cs).2 := by
  match cs with
  | [] => exact ⟨none, rfl, rfl⟩
  | [c] => exact ⟨none, rfl, rfl⟩
  | c :: d :: cs =>
      rw [takePart]
      split
      · next h =>
          -- the first digit is checked apart from the run behind it
          obtain ⟨rfl, hd⟩ := h
          have hdigits : ∀ b ∈ d :: cs.takeWhile isDecimal, isDecimal b = true := by
            intro b hb
            rcases List.mem_cons.mp hb with rfl | hb
            · exact hd
            · exact List.mem_takeWhile_imp hb
          refine ⟨some ⟨_, List.cons_ne_nil _ _, hdigits⟩, rfl, ?_⟩
          rw [partText, List.cons_append, List.cons_append, List.takeWhile_append_dropWhile]
      · exact ⟨none, rfl, rfl⟩

/-- A written number is taken whole: each of its parts ends where the next separator, or what
follows, begins. -/
lemma takeNumber_text (n : WrittenNumber) (hrest : EndsCoefficient rest) :
    takeNumber (n.text ++ rest) = (n.text, rest) := by
  -- the parts are taken from the front, so that their ends are settled from the back
  have hdivisor : takePart '/' (partText '/' n.divisor ++ rest)
      = (partText '/' n.divisor, rest) :=
    takePart_partText n.divisor fun c hc => ⟨(hrest c hc).1, (hrest c hc).2.2.1⟩
  have hfraction : takePart '.' (partText '.' n.fraction ++ (partText '/' n.divisor ++ rest))
      = (partText '.' n.fraction, partText '/' n.divisor ++ rest) := by
    refine takePart_partText n.fraction fun c hc => ?_
    rcases head?_partText_append hc with rfl | hc
    · decide
    · exact ⟨(hrest c hc).1, (hrest c hc).2.1⟩
  have hwhole : ∀ c ∈ (partText '.' n.fraction ++ (partText '/' n.divisor ++ rest)).head?,
      isDecimal c = false := by
    intro c hc
    rcases head?_partText_append hc with rfl | hc
    · decide
    · rcases head?_partText_append hc with rfl | hc
      · decide
      · exact (hrest c hc).1
  simp only [takeNumber, WrittenNumber.text, WrittenNumber.decimalText, List.append_assoc,
    takeWhile_append_eq n.whole.isDecimal_of_mem hwhole,
    dropWhile_append_eq n.whole.isDecimal_of_mem hwhole, hfraction, hdivisor]

/-- What is taken from a digit on is a written number. -/
lemma exists_takeNumber (cs : List Char) (hc : isDecimal c = true) :
    ∃ n : WrittenNumber, c :: cs = n.text ++ (takeNumber (c :: cs)).2 := by
  have hne : (c :: cs).takeWhile isDecimal ≠ [] := by
    rw [List.takeWhile_cons, if_pos hc]
    exact List.cons_ne_nil _ _
  obtain ⟨fraction, _, hfraction⟩ := exists_takePart '.' ((c :: cs).dropWhile isDecimal)
  obtain ⟨divisor, _, hdivisor⟩ :=
    exists_takePart '/' (takePart '.' ((c :: cs).dropWhile isDecimal)).2
  -- the whole part is not empty, which the digit at the front ensures
  refine ⟨⟨⟨_, hne, fun b hb => List.mem_takeWhile_imp hb⟩, fraction, divisor⟩, ?_⟩
  calc c :: cs
      = (c :: cs).takeWhile isDecimal ++ (c :: cs).dropWhile isDecimal :=
        List.takeWhile_append_dropWhile.symm
    _ = _ := by
        conv_lhs => rw [hfraction, hdivisor]
        simp only [WrittenNumber.text, WrittenNumber.decimalText, List.append_assoc, takeNumber]

/-! ### Reading a coefficient -/

/-- A digit begins a coefficient without brackets. -/
lemma takeCoefficient?_of_isDecimal (hc : isDecimal c = true) :
    takeCoefficient? (c :: cs)
      = some (some (takeNumber (c :: cs)).1, (takeNumber (c :: cs)).2) := by
  rw [takeCoefficient?]
  · rw [if_pos hc]
  · rintro rfl
    exact absurd hc (by decide)

/-- A written coefficient is taken whole, in brackets or not, and none where none is written. -/
lemma takeCoefficient?_text (k : Option WrittenCoefficient) (hrest : EndsCoefficient rest) :
    takeCoefficient? (k.elim [] WrittenCoefficient.text ++ rest)
      = some (k.map fun k => k.number.text, rest) := by
  cases k with
  | none =>
      cases rest with
      | nil => rfl
      | cons c rest =>
          obtain ⟨hdigit, -, -, hbracket⟩ := hrest c rfl
          rw [Option.elim_none, List.nil_append, takeCoefficient?]
          · rw [if_neg (by simp [hdigit])]
            rfl
          · exact hbracket
  | some k =>
      -- the first character decides how the reader goes on
      obtain ⟨c, cs, h, hc⟩ := k.number.exists_text_eq_cons
      rw [Option.elim_some, Option.map_some, WrittenCoefficient.text]
      split
      · -- in brackets the closing one ends the number
        have hclose : EndsCoefficient (')' :: rest) := by
          intro b hb
          cases hb
          decide
        have hnumber := takeNumber_text k.number hclose
        rw [h] at hnumber ⊢
        simp only [List.cons_append, List.append_assoc, List.nil_append] at hnumber ⊢
        rw [takeCoefficient?, if_pos (by simp [hc]), hnumber]
        rfl
      · -- without brackets the end of the term does
        have hnumber := takeNumber_text k.number hrest
        rw [h] at hnumber ⊢
        rw [List.cons_append] at hnumber ⊢
        rw [takeCoefficient?_of_isDecimal hc, hnumber]

/-- What is taken is a written coefficient, or nothing. -/
lemma exists_takeCoefficient? {k : Option (List Char)} (h : takeCoefficient? cs = some (k, rest)) :
    ∃ k' : Option WrittenCoefficient, cs = k'.elim [] WrittenCoefficient.text ++ rest
      ∧ k.isSome = k'.isSome := by
  unfold takeCoefficient? at h
  split at h
  · cases h
    exact ⟨none, rfl, rfl⟩
  · next cs =>
      -- a bracket, the number in it and the bracket that closes it
      split at h
      · next hdigit =>
          obtain ⟨c, cs, rfl⟩ := List.exists_cons_of_ne_nil (l := cs) fun h0 => by
            simp [h0] at hdigit
          split at h
          · next number rest' hnumber =>
              cases h
              obtain ⟨n, hn⟩ := exists_takeNumber cs (by simpa using hdigit)
              rw [hnumber] at hn
              refine ⟨some ⟨n, true⟩, ?_, rfl⟩
              simp [hn, WrittenCoefficient.text]
          · cases h
      · cases h
  · next c cs _ =>
      split at h
      · next hc =>
          cases h
          obtain ⟨n, hn⟩ := exists_takeNumber cs hc
          exact ⟨some ⟨n, false⟩, hn, rfl⟩
      · cases h
        exact ⟨none, rfl, rfl⟩

/-! ### Reading a power -/

/-- The asterisk is optional. -/
lemma dropAsterisk_text (asterisk : Bool) (hrest : ∀ c ∈ rest.head?, c ≠ '*') :
    dropAsterisk (asteriskText asterisk ++ rest) = rest := by
  cases asterisk with
  | true => rfl
  | false =>
      match rest with
      | [] => rfl
      | c :: rest =>
          rw [asteriskText, if_neg (by decide), List.nil_append, dropAsterisk]
          exact fun cs h => hrest c rfl (List.cons.inj h).1

/-- At most one asterisk is taken. -/
lemma exists_dropAsterisk (cs : List Char) : ∃ a, cs = asteriskText a ++ dropAsterisk cs := by
  unfold dropAsterisk
  split
  · exact ⟨true, rfl⟩
  · exact ⟨false, rfl⟩

/-- Both marks of an exponent are understood. -/
lemma exponent?_text (mark : ExponentMark) (d : Digits) :
    exponent? (mark.text ++ d.chars) = some d.chars := by
  have hdigits : (d.chars.isEmpty || !d.chars.all isDecimal) = false := by
    simpa [d.chars_ne_nil] using d.isDecimal_of_mem
  cases mark with
  | caret => exact if_neg (by simp [hdigits])
  | asterisks => exact if_neg (by simp [hdigits])

/-- An exponent is a mark and digits up to the end of the text. -/
lemma exists_exponent? {e : List Char} (h : exponent? cs = some e) :
    ∃ (mark : ExponentMark) (d : Digits), cs = mark.text ++ d.chars := by
  unfold exponent? at h
  split at h
  · next cs =>
      split at h
      · cases h
      · next hdigits =>
          simp only [Bool.or_eq_true, Bool.not_eq_true', not_or, List.isEmpty_iff] at hdigits
          exact ⟨.caret, ⟨cs, hdigits.1, by simpa using hdigits.2⟩, rfl⟩
  · next cs =>
      split at h
      · cases h
      · next hdigits =>
          simp only [Bool.or_eq_true, Bool.not_eq_true', not_or, List.isEmpty_iff] at hdigits
          exact ⟨.asterisks, ⟨cs, hdigits.1, by simpa using hdigits.2⟩, rfl⟩
  · cases h

/-- A written power is read whole, with an exponent, without one, or not written at all. -/
lemma power?_text (p : Option WrittenPower) :
    power? (p.elim [] WrittenPower.text)
      = some (p.map fun p => p.name.chars, p.bind fun p => p.exponent.map fun e => e.2.chars) := by
  cases p with
  | none => rfl
  | some p =>
      obtain ⟨name, exponent⟩ := p
      rw [Option.elim_some, WrittenPower.text, WrittenName.chars, List.cons_append, power?,
        if_pos name.isNameStart_first]
      cases exponent with
      | none =>
          have hstop : ∀ c ∈ ([] : List Char).head?, isWord c = false := fun c hc => by cases hc
          have htake := takeWhile_append_eq name.isWord_of_mem hstop
          have hdrop := dropWhile_append_eq name.isWord_of_mem hstop
          simp only [Option.elim_none, htake, hdrop]
          rfl
      | some e =>
          -- the mark of the exponent ends the name
          have hstop : ∀ c ∈ (e.1.text ++ e.2.chars).head?, isWord c = false := by
            cases e.1 <;> exact fun c hc => by cases hc; decide
          have htake := takeWhile_append_eq name.isWord_of_mem hstop
          have hdrop := dropWhile_append_eq name.isWord_of_mem hstop
          have hexponent := exponent?_text e.1 e.2
          simp only [Option.elim_some, htake, hdrop]
          split
          · next hnil => cases hmark : e.1 <;> simp [hmark, ExponentMark.text] at hnil
          · rw [hexponent]
            rfl

/-- What is read as a power is one that is written. -/
lemma exists_power? {n e : Option (List Char)} (h : power? cs = some (n, e)) :
    ∃ p : Option WrittenPower, cs = p.elim [] WrittenPower.text ∧ n.isSome = p.isSome := by
  unfold power? at h
  split at h
  · cases h
    exact ⟨none, rfl, rfl⟩
  · next c cs =>
      split at h
      · next hc =>
          have hword : ∀ b ∈ cs.takeWhile isWord, isWord b = true := fun b hb =>
            List.mem_takeWhile_imp hb
          have hsplit : cs = cs.takeWhile isWord ++ cs.dropWhile isWord :=
            List.takeWhile_append_dropWhile.symm
          split at h
          -- the name is the longest run of word characters; an exponent must follow or nothing
          · next hdrop =>
              cases h
              refine ⟨some ⟨⟨c, _, hc, hword⟩, none⟩, ?_, rfl⟩
              rw [hdrop] at hsplit
              exact congrArg (c :: ·) hsplit
          · next rest _ =>
              obtain ⟨e', he, heq⟩ := Option.map_eq_some_iff.mp h
              cases heq
              obtain ⟨mark, d, hexp⟩ := exists_exponent? he
              refine ⟨some ⟨⟨c, _, hc, hword⟩, some (mark, d)⟩, ?_, rfl⟩
              rw [hexp] at hsplit
              exact congrArg (c :: ·) hsplit
      · cases h

/-! ### Reading a term -/

/-- A written sign is taken; a body does not begin with one. -/
lemma takeSign_text (sign? : Option TermSign) (b : WrittenBody) :
    takeSign ((sign?.map TermSign.char).toList ++ b.text)
      = (decide (sign?.getD .plus = .minus), b.text) := by
  cases sign? with
  | some sign => cases sign <;> rfl
  | none =>
      obtain ⟨c, cs, h⟩ := List.exists_cons_of_ne_nil b.text_ne_nil
      have hsign : isSign c = false :=
        isSign_of_isTermCharacter (b.isTermCharacter (h ▸ List.mem_cons_self))
      simp only [isSign, Bool.or_eq_false_iff, decide_eq_false_iff_not] at hsign
      rw [Option.map_none, Option.toList_none, List.nil_append, h, takeSign]
      · rfl
      · exact fun cs h => hsign.2 (List.cons.inj h).1
      · exact fun cs h => hsign.1 (List.cons.inj h).1

/-- At most one sign is taken. -/
lemma exists_takeSign (cs : List Char) :
    ∃ sign? : Option TermSign, cs = (sign?.map TermSign.char).toList ++ (takeSign cs).2 := by
  unfold takeSign
  split
  · exact ⟨some .minus, rfl⟩
  · exact ⟨some .plus, rfl⟩
  · exact ⟨none, rfl⟩

/-- A power begins with its name. -/
lemma head?_power {p : Option WrittenPower} (hc : c ∈ (p.elim [] WrittenPower.text).head?) :
    isNameStart c = true := by
  cases p with
  | none => cases hc
  | some p =>
      cases hc
      exact p.name.isNameStart_first

lemma ne_of_isNameStart {d : Char} (hc : isNameStart c = true) (hd : isNameStart d = false) :
    c ≠ d := by
  rintro rfl
  rw [hc] at hd
  cases hd

/-- No name begins with a digit: names begin with ASCII letters, and the ASCII letters are no
digits. -/
lemma isDecimal_of_isNameStart (hc : isNameStart c = true) : isDecimal c = false := by
  rw [← Bool.not_eq_true]
  intro hdecimal
  have hdigit := toNat_of_isDecimal hdecimal
  have hletter : (65 ≤ c.toNat ∧ c.toNat ≤ 90) ∨ (97 ≤ c.toNat ∧ c.toNat ≤ 122) := by
    have h : (decide (65 ≤ c.val ∧ c.val ≤ 90) || decide (97 ≤ c.val) && decide (c.val ≤ 122))
        = true := hc
    simpa [UInt32.le_iff_toNat_le] using h
  omega

/-- What stands behind the coefficient of a term begins with an asterisk or a name. -/
lemma endsCoefficient_tailText (b : WrittenBody) : EndsCoefficient b.tailText := by
  intro c hc
  rw [WrittenBody.tailText] at hc
  cases hasterisk : b.asterisk with
  | true => rw [hasterisk] at hc; cases hc; decide
  | false =>
      rw [hasterisk] at hc
      have hstart := head?_power hc
      exact ⟨isDecimal_of_isNameStart hstart, ne_of_isNameStart hstart (by decide),
        ne_of_isNameStart hstart (by decide), ne_of_isNameStart hstart (by decide)⟩

/-- A piece is a sign, a coefficient, an asterisk and a power, and one of coefficient and power
is there. -/
lemma ofPiece?_eq_some_iff {t : Term} :
    ofPiece? cs = some t ↔
      ∃ k rest n e, takeCoefficient? (takeSign cs).2 = some (k, rest)
        ∧ power? (dropAsterisk rest) = some (n, e) ∧ (k.isSome = true ∨ n.isSome = true)
        ∧ t = ⟨(takeSign cs).1, k, n, e⟩ := by
  simp only [ofPiece?, Option.bind_eq_bind, Option.bind_eq_some_iff, Prod.exists]
  constructor
  · rintro ⟨k, rest, hk, n, e, hp, h⟩
    split at h
    · cases h
    · next hsome =>
        refine ⟨k, rest, n, e, hk, hp, ?_, (Option.some.inj h).symm⟩
        cases k <;> cases n <;> simp_all
  · rintro ⟨k, rest, n, e, hk, hp, hsome, rfl⟩
    refine ⟨k, rest, hk, n, e, hp, if_neg ?_⟩
    cases k <;> cases n <;> simp_all

/-- The reader makes of a written term, with its sign or without, the term that is written. -/
lemma ofPiece?_text (sign? : Option TermSign) (b : WrittenBody) :
    ofPiece? ((sign?.map TermSign.char).toList ++ b.text)
      = some (WrittenTerm.mk (sign?.getD .plus) b).toTerm := by
  have hsign := takeSign_text sign? b
  have hcoefficient := takeCoefficient?_text b.coefficient (endsCoefficient_tailText b)
  have hasterisk : dropAsterisk b.tailText = b.power.elim [] WrittenPower.text :=
    dropAsterisk_text b.asterisk fun c hc => ne_of_isNameStart (head?_power hc) (by decide)
  have hpower := power?_text b.power
  refine ofPiece?_eq_some_iff.mpr ⟨_, _, _, _, by rw [hsign]; exact hcoefficient,
    by rw [hasterisk]; exact hpower, ?_, by rw [hsign]; rfl⟩
  rw [Option.isSome_map, Option.isSome_map]
  exact b.coefficient_or_power

/-- The reader accepts written terms only. -/
lemma exists_body_of_ofPiece? {t : Term} (h : ofPiece? cs = some t) :
    ∃ (sign? : Option TermSign) (b : WrittenBody),
      cs = (sign?.map TermSign.char).toList ++ b.text := by
  obtain ⟨k, rest, n, e, hk, hp, hsome, -⟩ := ofPiece?_eq_some_iff.mp h
  obtain ⟨sign?, hsign⟩ := exists_takeSign cs
  obtain ⟨coefficient, hcoefficient, hk'⟩ := exists_takeCoefficient? hk
  obtain ⟨asterisk, hasterisk⟩ := exists_dropAsterisk rest
  obtain ⟨power, hpower, hn⟩ := exists_power? hp
  rw [hk', hn] at hsome
  refine ⟨sign?, ⟨coefficient, asterisk, power, hsome⟩, ?_⟩
  rw [WrittenBody.text, WrittenBody.tailText, ← hpower, ← hasterisk, ← hcoefficient, ← hsign]

end Term

end Polynomial

end ExactAlgebra
