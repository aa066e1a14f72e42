import Mathlib.Data.Set.List
import ExactAlgebra.Proofs.Outcome
import ExactAlgebra.Proofs.Polynomial.Denotation
import ExactAlgebra.Proofs.Polynomial.WrittenTerm

/-!
Reading a polynomial text.

* **What a sum stands for.** `WrittenSum.coefficient` adds up the terms of one power,
  `WrittenSum.height` is the highest power that is mentioned, and `WrittenSum.IsMeaningful` says
  that no divisor is zero and all terms have one variable.
* **Pieces.** A text is cut in front of its signs, and a written sum is cut into its terms
  (`signedPieces?_text`). A text of which every piece is a term is a written sum
  (`exists_writtenSum`).
* **Adding up.** One piece adds its term to what has been read (`addPiece_eq_ok_iff`), and the
  pieces of a sum add up its terms (`foldlM_addPiece_eq_ok_iff`).

Main statement: `coefficientsOfText?_grammar`.
-/

open Polynomial

namespace ExactAlgebra

open Text

namespace Polynomial

/-! ### What a sum stands for -/

namespace WrittenSum

/-- The names of the variable, once for each power that is written. -/
def names (w : WrittenSum) : List (List Char) := w.terms.filterMap WrittenTerm.name?

/-- Whether a sum stands for a polynomial: no divisor is zero, and all names are the same. -/
structure IsMeaningful (w : WrittenSum) : Prop where
  isDefined : ∀ t ∈ w.terms, t.IsDefined
  name_eq : w.names.Pairwise (· = ·)

/-- The name of the variable, if there is one. -/
def name? (w : WrittenSum) : Option String := w.names.head?.map String.ofList

/-- The sum of the coefficients of one power. -/
def coefficient (w : WrittenSum) (n : ℕ) : ℚ :=
  ((w.terms.filter fun t => t.degree = n).map WrittenTerm.value).sum

/-- The highest power that is mentioned. -/
def height (w : WrittenSum) : ℕ := (w.terms.map WrittenTerm.degree).foldr max 0

/-- The coefficients up to the highest power that is mentioned. -/
def coefficients (w : WrittenSum) : List ℚ := (List.range (w.height + 1)).map w.coefficient

end WrittenSum

/-! ### Pieces -/

/-- The first character opens the first piece. -/
lemma exists_pieces_cons (c : Char) (cs : List Char) :
    ∃ p ps, pieces (c :: cs) = (c :: p) :: ps := by
  rw [pieces]
  cases pieces cs with
  | nil => exact ⟨[], [], rfl⟩
  | cons p ps =>
      dsimp only
      split
      · exact ⟨[], p :: ps, rfl⟩
      · exact ⟨p, ps, rfl⟩

/-- No character is lost when a text is cut into pieces. -/
lemma flatten_pieces (cs : List Char) : (pieces cs).flatten = cs := by
  induction cs with
  | nil => rfl
  | cons c cs ih =>
      rw [pieces]
      cases h : pieces cs with
      | nil => rw [h] at ih; simp [← ih]
      | cons p ps =>
          rw [h] at ih
          dsimp only
          split <;> simp [← ih]

/-- Every piece but the first one begins with a sign. -/
lemma startsWithSign_of_mem_tail (cs : List Char) :
    ∀ p ∈ (pieces cs).tail, startsWithSign p = true := by
  induction cs with
  | nil => simp [pieces]
  | cons c cs ih =>
      rw [pieces]
      cases h : pieces cs with
      | nil => simp
      | cons p ps =>
          rw [h, List.tail_cons] at ih
          dsimp only
          split
          · next hp =>
              intro q hq
              rcases List.mem_cons.mp hq with rfl | hq
              · exact hp
              · exact ih q hq
          · exact ih

/-- A piece ends where a sign follows it. -/
lemma pieces_append {c : Char} {cs rest : List Char} (hcs : ∀ b ∈ cs, isSign b = false)
    (hrest : ∀ b ∈ rest.head?, isSign b = true) :
    pieces (c :: cs ++ rest) = (c :: cs) :: pieces rest := by
  induction cs generalizing c with
  | nil =>
      cases rest with
      | nil => rfl
      | cons b rest =>
          obtain ⟨p, ps, h⟩ := exists_pieces_cons b rest
          rw [List.cons_append, List.nil_append, pieces, h]
          exact if_pos (hrest b rfl)
  | cons b cs ih =>
      have hb : startsWithSign (b :: cs) = false := hcs b List.mem_cons_self
      have ih := @ih b fun d hd => hcs d (List.mem_cons_of_mem b hd)
      rw [List.cons_append] at ih
      rw [List.cons_append, List.cons_append, pieces, ih]
      exact if_neg (by simp [hb])

/-! ### The pieces of a written sum -/

lemma WrittenBody.isSign_of_mem {b : WrittenBody} {c : Char} (hc : c ∈ b.text) :
    isSign c = false := isSign_of_isTermCharacter (b.isTermCharacter hc)

/-- The text of a term that may have no sign. -/
def pieceText (sign? : Option TermSign) (b : WrittenBody) : List Char :=
  (sign?.map TermSign.char).toList ++ b.text

/-- A piece has no sign behind its first character. -/
lemma exists_pieceText_eq_cons (sign? : Option TermSign) (b : WrittenBody) :
    ∃ c cs, pieceText sign? b = c :: cs ∧ ∀ d ∈ cs, isSign d = false := by
  cases sign? with
  | some s => exact ⟨s.char, b.text, rfl, fun d hd => b.isSign_of_mem hd⟩
  | none =>
      obtain ⟨c, cs, h⟩ := List.exists_cons_of_ne_nil b.text_ne_nil
      exact ⟨c, cs, h, fun d hd => b.isSign_of_mem (h ▸ List.mem_cons_of_mem c hd)⟩

lemma isLoneSign_pieceText (sign? : Option TermSign) (b : WrittenBody) :
    isLoneSign (pieceText sign? b) = false := by
  obtain ⟨c, cs, h⟩ := List.exists_cons_of_ne_nil b.text_ne_nil
  cases sign? with
  | some s => simp [pieceText, h, isLoneSign]
  | none =>
      have hc : isSign c = false := b.isSign_of_mem (h ▸ List.mem_cons_self)
      cases cs <;> simp [pieceText, h, isLoneSign, hc]

/-- A term that is not the first begins with its sign. -/
lemma isSign_head?_flatMap_text (ts : List WrittenTerm) :
    ∀ c ∈ (ts.flatMap WrittenTerm.text).head?, isSign c = true := by
  cases ts with
  | nil => exact fun c hc => by cases hc
  | cons t ts => exact fun c hc => by cases hc; exact t.sign.isSign_char

lemma pieces_flatMap_text (ts : List WrittenTerm) :
    pieces (ts.flatMap WrittenTerm.text) = ts.map WrittenTerm.text := by
  induction ts with
  | nil => rfl
  | cons t ts ih =>
      rw [List.flatMap_cons, List.map_cons, ← ih]
      exact pieces_append (fun c hc => t.body.isSign_of_mem hc) (isSign_head?_flatMap_text ts)

namespace WrittenSum

/-- The texts of the terms of a sum. -/
def pieces (w : WrittenSum) : List (List Char) :=
  pieceText w.sign? w.first :: w.rest.map WrittenTerm.text

/-- The pieces of a written sum are its terms. -/
lemma pieces_text (w : WrittenSum) : Polynomial.pieces w.text = w.pieces := by
  obtain ⟨c, cs, h, hcs⟩ := exists_pieceText_eq_cons w.sign? w.first
  rw [pieces, ← pieces_flatMap_text, h,
    ← pieces_append hcs (isSign_head?_flatMap_text w.rest), ← h]
  rfl

/-- No piece is a sign alone, so that the pieces are accepted. -/
lemma signedPieces?_text (w : WrittenSum) : signedPieces? w.text = some w.pieces := by
  have hlone : ∀ p ∈ w.pieces, isLoneSign p = false := by
    intro p hp
    rcases List.mem_cons.mp hp with rfl | hp
    · exact isLoneSign_pieceText w.sign? w.first
    · obtain ⟨t, -, rfl⟩ := List.mem_map.mp hp
      exact isLoneSign_pieceText (some t.sign) t.body
  rw [signedPieces?, pieces_text]
  refine if_neg ?_
  rw [Bool.not_eq_true, Bool.or_eq_false_iff]
  exact ⟨rfl, List.any_eq_false.mpr fun p hp => by simp [hlone p hp]⟩

/-- The pieces of a sum are read as its terms. -/
lemma forall₂_ofPiece? (w : WrittenSum) :
    List.Forall₂ (fun p t => Term.ofPiece? p = some t.toTerm) w.pieces w.terms := by
  refine .cons (Term.ofPiece?_text w.sign? w.first) ?_
  rw [List.forall₂_map_left_iff, List.forall₂_same]
  exact fun t _ => Term.ofPiece?_text (some t.sign) t.body

end WrittenSum

/-- A piece that is a term and begins with a sign is a signed term. -/
lemma exists_writtenTerm {p : List Char} {t : Term} (h : Term.ofPiece? p = some t)
    (hsign : startsWithSign p = true) : ∃ u : WrittenTerm, u.text = p := by
  obtain ⟨sign?, b, rfl⟩ := Term.exists_body_of_ofPiece? h
  cases sign? with
  | some s => exact ⟨⟨s, b⟩, rfl⟩
  | none =>
      obtain ⟨c, cs, hb⟩ := List.exists_cons_of_ne_nil b.text_ne_nil
      rw [Option.map_none, Option.toList_none, List.nil_append, hb, startsWithSign,
        b.isSign_of_mem (hb ▸ List.mem_cons_self)] at hsign
      cases hsign

/-- A text is a written sum if all its pieces are terms. -/
lemma exists_writtenSum {cs : List Char} {ps : List (List Char)} (h : signedPieces? cs = some ps)
    (hps : ∀ p ∈ ps, ∃ t, Term.ofPiece? p = some t) : ∃ w : WrittenSum, w.text = cs := by
  rw [signedPieces?] at h
  split at h
  · cases h
  · next hne =>
      cases h
      obtain ⟨p, ps, hpieces⟩ := List.exists_cons_of_ne_nil (l := pieces cs) fun h0 => by
        simp [h0] at hne
      have hsigns := startsWithSign_of_mem_tail cs
      have hflatten := flatten_pieces cs
      rw [hpieces] at hps hsigns hflatten
      -- the first piece may lack its sign
      obtain ⟨t, ht⟩ := hps p List.mem_cons_self
      obtain ⟨sign?, b, hp⟩ := Term.exists_body_of_ofPiece? ht
      -- the others begin with one, since the text is cut in front of signs
      have hterms : ∀ q ∈ ps, ∃ u : WrittenTerm, u.text = q := fun q hq =>
        (hps q (List.mem_cons_of_mem p hq)).elim fun t ht => exists_writtenTerm ht (hsigns q hq)
      have hrange : ps ∈ Set.range (List.map WrittenTerm.text) := by
        rw [Set.range_list_map]
        exact hterms
      obtain ⟨ts, rfl⟩ := hrange
      refine ⟨⟨sign?, b, ts⟩, ?_⟩
      rw [WrittenSum.text, ← hp, ← hflatten, List.flatten_cons, List.flatMap_def]

/-! ### Adding up the terms -/

lemma toTerm_degree (t : WrittenTerm) : t.toTerm.degree = t.degree := by
  obtain ⟨sign, coefficient, asterisk, power, h⟩ := t
  cases power with
  | none => rfl
  | some p =>
      obtain ⟨name, exponent⟩ := p
      cases exponent with
      | none => rfl
      | some e => exact e.2.ofDigitValues_values

/-- The value of a term is refused only for a division by zero. -/
lemma toTerm_value?_eq_ok_iff {t : WrittenTerm} {c : ℚ} :
    t.toTerm.value? = .ok c ↔ t.IsDefined ∧ c = t.value := by
  obtain ⟨sign, coefficient, asterisk, power, h⟩ := t
  cases coefficient with
  | none => cases sign <;> simp [Term.value?, WrittenTerm.toTerm, WrittenTerm.IsDefined,
      WrittenTerm.value, eq_comm]
  | some k =>
      have hread := k.number.numeral?_text
      by_cases hk : k.number.divisorValue = 0
      · rw [if_pos hk] at hread
        simp [Term.value?, WrittenTerm.toTerm, WrittenTerm.IsDefined, hread, hk]
      · rw [if_neg hk] at hread
        cases sign <;> simp [Term.value?, WrittenTerm.toTerm, WrittenTerm.IsDefined,
          WrittenTerm.value, hread, hk] <;> exact eq_comm

/-- Two names are shared when they are equal or one of them is missing. -/
lemma sharedName?_eq_ok_iff {a b c : Option (List Char)} :
    sharedName? a b = .ok c ↔ (∀ x ∈ a, ∀ y ∈ b, x = y) ∧ c = a.or b := by
  cases a with
  | none => simp [sharedName?, eq_comm]
  | some x =>
      cases b with
      | none => simp [sharedName?, eq_comm]
      | some y => by_cases hxy : x = y <;> simp [sharedName?, hxy, eq_comm]

/-- The list of coefficients of a single term. -/
def WrittenTerm.coefficients (t : WrittenTerm) : List ℚ := List.replicate t.degree 0 ++ [t.value]

/-- A piece adds the term that it is. -/
lemma addPiece_eq_ok_iff {shown : String} {s s' : Sum} {p : List Char} {t : WrittenTerm}
    (h : Term.ofPiece? p = some t.toTerm) :
    s.addPiece shown p = .ok s' ↔
      t.IsDefined ∧ (∀ a ∈ s.name?, ∀ b ∈ t.name?, a = b)
        ∧ s' = ⟨Coefficients.add s.coefficients t.coefficients, s.name?.or t.name?⟩ := by
  have hname : t.toTerm.name? = t.name? := rfl
  simp only [Sum.addPiece, h, bind_eq_ok_iff, toTerm_value?_eq_ok_iff, hname,
    sharedName?_eq_ok_iff, toTerm_degree, Except.ok.injEq, WrittenTerm.coefficients]
  grind

/-- The names that are seen so far and the names of the terms to come, in the order in which
they are written. -/
def namesFrom (name? : Option (List Char)) (ts : List WrittenTerm) : List (List Char) :=
  name?.toList ++ ts.filterMap WrittenTerm.name?

lemma head?_namesFrom_or (name? : Option (List Char)) (t : WrittenTerm) (ts : List WrittenTerm) :
    (namesFrom (name?.or t.name?) ts).head? = (namesFrom name? (t :: ts)).head? := by
  cases name? <;> cases ht : t.name? <;> simp [namesFrom, ht]

/-- Names are the same when each further one is the one seen before. -/
lemma namesFrom_or_eq_iff (name? : Option (List Char)) (t : WrittenTerm) (ts : List WrittenTerm) :
    ((∀ a ∈ name?, ∀ b ∈ t.name?, a = b)
        ∧ (namesFrom (name?.or t.name?) ts).Pairwise (· = ·)) ↔
      (namesFrom name? (t :: ts)).Pairwise (· = ·) := by
  cases name? with
  | none => cases ht : t.name? <;> simp [namesFrom, ht]
  | some a =>
      cases ht : t.name? with
      | none => simp [namesFrom, ht]
      | some b =>
          simp only [namesFrom, ht, List.filterMap_cons, Option.or_some, Option.toList_some,
            List.singleton_append, List.pairwise_cons, Option.mem_some, Option.getD_some,
            List.forall_mem_cons]
          constructor
          · rintro ⟨hname, hns, hpairwise⟩
            obtain rfl : a = b := hname a rfl b rfl
            exact ⟨⟨rfl, hns⟩, hns, hpairwise⟩
          · rintro ⟨⟨rfl, hns⟩, -, hpairwise⟩
            exact ⟨by rintro _ rfl _ rfl; rfl, hns, hpairwise⟩

/-- The pieces of a list of terms add up the terms, if every term is defined and all their names
are the same. -/
lemma foldlM_addPiece_eq_ok_iff {shown : String} {s s' : Sum} {ps : List (List Char)}
    {ts : List WrittenTerm} (h : List.Forall₂ (fun p t => Term.ofPiece? p = some t.toTerm) ps ts) :
    ps.foldlM (Sum.addPiece shown) s = .ok s' ↔
      (∀ t ∈ ts, t.IsDefined)
        ∧ (namesFrom s.name? ts).Pairwise (· = ·)
        ∧ s' = ⟨(ts.map WrittenTerm.coefficients).foldl Coefficients.add s.coefficients,
            (namesFrom s.name? ts).head?⟩ := by
  induction h generalizing s with
  | nil =>
      obtain ⟨coefficients, name?⟩ := s
      cases name? <;> simp [namesFrom, pure, Except.pure, eq_comm]
  | @cons p t ps ts hp _ ih =>
      rw [List.foldlM_cons, bind_eq_ok_iff, List.forall_mem_cons, ← namesFrom_or_eq_iff,
        ← head?_namesFrom_or, List.map_cons, List.foldl_cons]
      constructor
      · rintro ⟨u, hu, hs'⟩
        obtain ⟨hdefined, hname, rfl⟩ := (addPiece_eq_ok_iff hp).mp hu
        obtain ⟨hall, hnames, hs'⟩ := ih.mp hs'
        exact ⟨⟨hdefined, hall⟩, ⟨hname, hnames⟩, hs'⟩
      · rintro ⟨⟨hdefined, hall⟩, ⟨hname, hnames⟩, hs'⟩
        exact ⟨_, (addPiece_eq_ok_iff hp).mpr ⟨hdefined, hname, rfl⟩, ih.mpr ⟨hall, hnames, hs'⟩⟩

/-! ### The coefficients of a sum -/

namespace WrittenTerm

lemma length_coefficients (t : WrittenTerm) : t.coefficients.length = t.degree + 1 := by
  simp [coefficients]

/-- A term stands for a monomial. -/
lemma toPoly_coefficients (t : WrittenTerm) :
    Coefficients.toPoly t.coefficients = C t.value * X ^ t.degree := by
  rw [coefficients, Coefficients.toPoly_replicate_append, Coefficients.toPoly_cons,
    Coefficients.toPoly_nil]
  ring

lemma getD_coefficients (t : WrittenTerm) (n : ℕ) :
    t.coefficients.getD n 0 = if t.degree = n then t.value else 0 := by
  rw [← Coefficients.coeff_toPoly, toPoly_coefficients, coeff_C_mul_X_pow]
  exact if_congr eq_comm rfl rfl

end WrittenTerm

/-- The list of a sum is as long as its highest degree requires. -/
lemma length_foldl_add (ts : List WrittenTerm) (cs : List ℚ) :
    ((ts.map WrittenTerm.coefficients).foldl Coefficients.add cs).length
      = max cs.length ((ts.map fun t => t.degree + 1).foldr max 0) := by
  induction ts generalizing cs with
  | nil => simp
  | cons t ts ih =>
      rw [List.map_cons, List.foldl_cons, ih, Coefficients.length_add, t.length_coefficients,
        List.map_cons, List.foldr_cons, max_assoc]

/-- Terms of one degree are added up in its place. -/
lemma getD_foldl_add (ts : List WrittenTerm) (cs : List ℚ) (n : ℕ) :
    ((ts.map WrittenTerm.coefficients).foldl Coefficients.add cs).getD n 0
      = cs.getD n 0 + ((ts.filter fun t => t.degree = n).map WrittenTerm.value).sum := by
  induction ts generalizing cs with
  | nil => simp
  | cons t ts ih =>
      rw [List.map_cons, List.foldl_cons, ih, Coefficients.getD_add, t.getD_coefficients,
        List.filter_cons]
      by_cases h : t.degree = n
      · simp only [h, if_true, decide_true, List.map_cons, List.sum_cons]
        ring
      · simp only [h, if_false, decide_false, add_zero]
        rfl

/-- The lists of the terms add up to the sum of the monomials. -/
lemma toPoly_foldl_add (ts : List WrittenTerm) (cs : List ℚ) :
    Coefficients.toPoly ((ts.map WrittenTerm.coefficients).foldl Coefficients.add cs)
      = Coefficients.toPoly cs + (ts.map fun t => C t.value * X ^ t.degree).sum := by
  induction ts generalizing cs with
  | nil => simp
  | cons t ts ih =>
      rw [List.map_cons, List.foldl_cons, ih, Coefficients.toPoly_add, t.toPoly_coefficients,
        List.map_cons, List.sum_cons, add_assoc]

lemma foldr_max_succ (t : WrittenTerm) (ts : List WrittenTerm) :
    ((t :: ts).map fun t => t.degree + 1).foldr max 0
      = ((t :: ts).map WrittenTerm.degree).foldr max 0 + 1 := by
  induction ts generalizing t with
  | nil => simp
  | cons u ts ih =>
      have hu := ih u
      simp only [List.map_cons, List.foldr_cons] at hu ⊢
      omega

/-- Adding up the terms one by one gives the coefficients of the sum. -/
lemma foldl_add_eq_coefficients (w : WrittenSum) :
    (w.terms.map WrittenTerm.coefficients).foldl Coefficients.add [] = w.coefficients := by
  refine List.ext_getElem ?_ fun n h₁ h₂ => ?_
  · rw [length_foldl_add, List.length_nil, Nat.zero_max, WrittenSum.terms, foldr_max_succ]
    simp [WrittenSum.coefficients, WrittenSum.height, WrittenSum.terms]
  · have hn := getD_foldl_add w.terms [] n
    rw [List.getD_eq_getElem?_getD, List.getElem?_eq_getElem h₁, Option.getD_some,
      List.getD_nil, zero_add] at hn
    rw [hn]
    simp [WrittenSum.coefficients, WrittenSum.coefficient]

namespace WrittenSum

lemma coefficients_ne_nil (w : WrittenSum) : w.coefficients ≠ [] := by
  simp [coefficients]

lemma toPoly_coefficients (w : WrittenSum) :
    Coefficients.toPoly w.coefficients
      = (w.terms.map fun t => C t.value * X ^ t.degree).sum := by
  rw [← foldl_add_eq_coefficients, toPoly_foldl_add, Coefficients.toPoly_nil, zero_add]

end WrittenSum

/-! ### Reading a text -/

/-- A meaningful sum is read as what it stands for, whatever spaces stand in it. -/
lemma coefficientsOfText?_eq_ok_iff_of_text {w : WrittenSum} {s : String}
    (h : w.text = dropSpaces s.toList) {cs : List ℚ} {name? : Option String} :
    coefficientsOfText? s = .ok (cs, name?) ↔
      w.IsMeaningful ∧ cs = w.coefficients ∧ name? = w.name? := by
  rw [coefficientsOfText?, ← h, w.signedPieces?_text]
  simp only [bind_eq_ok_iff, foldlM_addPiece_eq_ok_iff w.forall₂_ofPiece?,
    foldl_add_eq_coefficients, Except.ok.injEq, Prod.mk.injEq]
  constructor
  · rintro ⟨sum, ⟨hdefined, hnames, rfl⟩, rfl, rfl⟩
    exact ⟨⟨hdefined, hnames⟩, rfl, rfl⟩
  · rintro ⟨⟨hdefined, hnames⟩, rfl, rfl⟩
    exact ⟨_, ⟨hdefined, hnames, rfl⟩, rfl, rfl⟩

/-- A meaningful sum is read as the polynomial that it stands for. -/
lemma ofText?_of_text {w : WrittenSum} {s : String} (htext : w.text = dropSpaces s.toList)
    (hw : w.IsMeaningful) : ofText? s = .ok (ofList w.coefficients w.name?) := by
  have hread := (coefficientsOfText?_eq_ok_iff_of_text htext).mpr ⟨hw, rfl, rfl⟩
  rw [ofText?, hread]
  exact if_neg (by simp [w.coefficients_ne_nil])

/-- Where the sum is read, every piece is a term. -/
lemma exists_ofPiece?_of_foldlM {shown : String} {ps : List (List Char)} {s s' : Sum}
    (h : ps.foldlM (Sum.addPiece shown) s = .ok s') :
    ∀ p ∈ ps, ∃ t, Term.ofPiece? p = some t := by
  induction ps generalizing s with
  | nil => exact fun p hp => by cases hp
  | cons p ps ih =>
      rw [List.foldlM_cons, bind_eq_ok_iff] at h
      obtain ⟨u, hu, h⟩ := h
      refine List.forall_mem_cons.mpr ⟨?_, ih h⟩
      rw [Sum.addPiece] at hu
      split at hu
      · cases hu
      · next t ht => exact ⟨t, ht⟩

/-- A text that is read is a written sum. -/
lemma exists_writtenSum_of_eq_ok {s : String} {r : List ℚ × Option String}
    (h : coefficientsOfText? s = .ok r) : ∃ w : WrittenSum, w.text = dropSpaces s.toList := by
  rw [coefficientsOfText?] at h
  split at h
  · cases h
  · next ps hps =>
      obtain ⟨sum, hsum, -⟩ := bind_eq_ok_iff.mp h
      exact exists_writtenSum hps (exists_ofPiece?_of_foldlM hsum)

/-- Every failure of the reader is one of the argument. -/
lemma kind_sharedName? {a b : Option (List Char)} {e : Error} (h : sharedName? a b = .error e) :
    e.kind = .invalidArgument := by
  rw [sharedName?.eq_def] at h
  split at h
  · cases h
  · cases h
  · split at h <;> cases h
    rfl

lemma kind_addPiece {shown : String} {s : Sum} {p : List Char} {e : Error}
    (h : s.addPiece shown p = .error e) : e.kind = .invalidArgument := by
  rw [Sum.addPiece] at h
  split at h
  · cases h; rfl
  · next t _ =>
      rcases bind_eq_error_iff.mp h with hvalue | ⟨c, -, h⟩
      · rw [Term.value?] at hvalue
        split at hvalue
        · cases hvalue
        · split at hvalue <;> cases hvalue
          rfl
      · rcases bind_eq_error_iff.mp h with hname | ⟨n, -, h⟩
        · exact kind_sharedName? hname
        · cases h

lemma kind_foldlM_addPiece {shown : String} {ps : List (List Char)} {s : Sum} {e : Error}
    (h : ps.foldlM (Sum.addPiece shown) s = .error e) : e.kind = .invalidArgument := by
  induction ps generalizing s with
  | nil => cases h
  | cons p ps ih =>
      rw [List.foldlM_cons] at h
      rcases bind_eq_error_iff.mp h with h | ⟨u, -, h⟩
      · exact kind_addPiece h
      · exact ih h

lemma kind_coefficientsOfText? {s : String} {e : Error} (h : coefficientsOfText? s = .error e) :
    e.kind = .invalidArgument := by
  rw [coefficientsOfText?] at h
  split at h
  · cases h; rfl
  · rcases bind_eq_error_iff.mp h with h | ⟨u, -, h⟩
    · exact kind_foldlM_addPiece h
    · cases h

/-- **The reader accepts the grammar.** A text is read when, spaces apart, it is a written sum in
which no divisor is zero and all variables are the same. Then the list that is returned goes up
to the highest power that is mentioned, its entries are the sums of the signed coefficients of
each power, and the name is the common one. All other texts are refused as invalid arguments. -/
theorem coefficientsOfText?_grammar (s : String) :
    (∀ cs name?, coefficientsOfText? s = .ok (cs, name?) ↔
      ∃ w : WrittenSum, w.text = dropSpaces s.toList ∧ w.IsMeaningful
        ∧ cs = w.coefficients ∧ name? = w.name?)
    ∧ ((¬∃ w : WrittenSum, w.text = dropSpaces s.toList ∧ w.IsMeaningful) ↔
      ∃ e, coefficientsOfText? s = .error e ∧ e.kind = .invalidArgument) := by
  have hread : ∀ cs name?, coefficientsOfText? s = .ok (cs, name?) ↔
      ∃ w : WrittenSum, w.text = dropSpaces s.toList ∧ w.IsMeaningful
        ∧ cs = w.coefficients ∧ name? = w.name? := by
    intro cs name?
    constructor
    · intro h
      obtain ⟨w, hw⟩ := exists_writtenSum_of_eq_ok h
      exact ⟨w, hw, (coefficientsOfText?_eq_ok_iff_of_text hw).mp h⟩
    · rintro ⟨w, hw, h⟩
      exact (coefficientsOfText?_eq_ok_iff_of_text hw).mpr h
  -- a text that is refused is no sum with a meaning, and the other way round
  refine ⟨hread, fun hnone => ?_, ?_⟩
  · cases h : coefficientsOfText? s with
    | error e => exact ⟨e, rfl, kind_coefficientsOfText? h⟩
    | ok r =>
        obtain ⟨w, hw, hmeaningful, -⟩ := (hread r.1 r.2).mp h
        exact absurd ⟨w, hw, hmeaningful⟩ hnone
  · rintro ⟨e, he, -⟩ ⟨w, hw, hmeaningful⟩
    rw [(coefficientsOfText?_eq_ok_iff_of_text hw).mpr ⟨hmeaningful, rfl, rfl⟩] at he
    cases he

example : coefficientsOfText? "(1/2)x**2 - 3*x + 2x" = .ok ([0, -1, 1 / 2], some "x") := by
  decide +kernel

end Polynomial

end ExactAlgebra
