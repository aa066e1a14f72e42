import ExactAlgebra.Polynomial.Reader
import ExactAlgebra.Proofs.Rational.WrittenNumber

/-!
The grammar of polynomial texts.

* **The grammar.** `WrittenBody` is a term without its sign: a coefficient, in brackets or not,
  an optional asterisk and an optional power, where coefficient and power are not both missing.
  `WrittenSum` is a sum of signed terms, of which the first may go without a sign. Each has its
  `text`, and a term says what it stands for: `degree`, `value` and `name?`.
* **Characters.** What follows a coefficient holds neither brackets nor slashes
  (`WrittenBody.isPowerCharacter`), and no character of a term without its sign is a sign
  (`WrittenBody.isTermCharacter`, `isSign_of_isTermCharacter`).
-/

namespace ExactAlgebra

open Text

namespace Polynomial

/-! ### The grammar -/

/-- A variable name: a letter of ASCII, followed by word characters. -/
structure WrittenName where
  first : Char
  rest : List Char
  isNameStart_first : isNameStart first = true
  isWord_of_mem : ∀ c ∈ rest, isWord c = true

/-- The characters of a name. -/
def WrittenName.chars (n : WrittenName) : List Char := n.first :: n.rest

/-- The two ways to write that an exponent follows. -/
inductive ExponentMark
  | caret
  | asterisks

/-- The text of the mark in front of an exponent. -/
def ExponentMark.text : ExponentMark → List Char
  | caret => ['^']
  | asterisks => ['*', '*']

/-- A power of the variable: a name with an optional exponent. -/
structure WrittenPower where
  name : WrittenName
  exponent : Option (ExponentMark × Digits)

namespace WrittenPower

/-- The text of a power. -/
def text (p : WrittenPower) : List Char :=
  p.name.chars ++ p.exponent.elim [] fun e => e.1.text ++ e.2.chars

/-- The exponent, one if none is written. -/
def degree (p : WrittenPower) : ℕ := p.exponent.elim 1 fun e => e.2.value

end WrittenPower

/-- A number in front of a power, in brackets or not. -/
structure WrittenCoefficient where
  number : WrittenNumber
  bracketed : Bool

/-- The text of a coefficient. -/
def WrittenCoefficient.text (c : WrittenCoefficient) : List Char :=
  if c.bracketed then '(' :: c.number.text ++ [')'] else c.number.text

/-- A term without its sign: a coefficient, an asterisk and a power. The asterisk may be
missing, and so may be the coefficient or the power, but not both. -/
structure WrittenBody where
  coefficient : Option WrittenCoefficient
  asterisk : Bool
  power : Option WrittenPower
  coefficient_or_power : coefficient.isSome = true ∨ power.isSome = true

/-- The text of an optional asterisk. -/
def asteriskText (asterisk : Bool) : List Char := if asterisk then ['*'] else []

/-- What follows the coefficient of a term. -/
def WrittenBody.tailText (b : WrittenBody) : List Char :=
  asteriskText b.asterisk ++ b.power.elim [] WrittenPower.text

/-- The text of a term without its sign. -/
def WrittenBody.text (b : WrittenBody) : List Char :=
  b.coefficient.elim [] WrittenCoefficient.text ++ b.tailText

/-- The sign of a term. -/
inductive TermSign
  | plus
  | minus
  deriving DecidableEq

/-- The character that writes a sign. -/
def TermSign.char : TermSign → Char
  | plus => '+'
  | minus => '-'

/-- A term with its sign. -/
structure WrittenTerm where
  sign : TermSign
  body : WrittenBody

namespace WrittenTerm

/-- The text of a signed term. -/
def text (t : WrittenTerm) : List Char := t.sign.char :: t.body.text

/-- The power of a term: zero without a variable. -/
def degree (t : WrittenTerm) : ℕ := t.body.power.elim 0 WrittenPower.degree

/-- The coefficient of a term with its sign; a coefficient that is missing is one. -/
def value (t : WrittenTerm) : ℚ :=
  let c : ℚ := t.body.coefficient.elim 1 fun c => c.number.value
  match t.sign with
  | .plus => c
  | .minus => -c

/-- The name of the variable of a term. -/
def name? (t : WrittenTerm) : Option (List Char) := t.body.power.map fun p => p.name.chars

/-- Whether a term stands for a number times a power: its divisor is not zero. -/
def IsDefined (t : WrittenTerm) : Prop :=
  ∀ c ∈ t.body.coefficient, c.number.divisorValue ≠ 0

/-- The parts of a term that the reader keeps. -/
def toTerm (t : WrittenTerm) : Term where
  negative := t.sign = .minus
  coefficient := t.body.coefficient.map fun c => c.number.text
  name? := t.name?
  exponent := t.body.power.bind fun p => p.exponent.map fun e => e.2.chars

end WrittenTerm

/-- A sum of terms: `[s₁] b₁ s₂ b₂ … sₙ bₙ`, where only the first sign may be missing. -/
structure WrittenSum where
  sign? : Option TermSign
  first : WrittenBody
  rest : List WrittenTerm

namespace WrittenSum

/-- The text of a sum. -/
def text (w : WrittenSum) : List Char :=
  (w.sign?.map TermSign.char).toList ++ w.first.text ++ w.rest.flatMap WrittenTerm.text

/-- The terms of a sum, where a sign that is missing is a plus. -/
def terms (w : WrittenSum) : List WrittenTerm := ⟨w.sign?.getD .plus, w.first⟩ :: w.rest

end WrittenSum

/-! ### Characters -/

/-- The characters that may follow the coefficient of a term. -/
def isPowerCharacter (c : Char) : Bool :=
  isDecimal c || isNameStart c || isWord c || c = '^' || c = '*'

lemma ExponentMark.isPowerCharacter {m : ExponentMark} {c : Char} (hc : c ∈ m.text) :
    isPowerCharacter c = true := by
  cases m <;> simp only [text, List.mem_cons, List.not_mem_nil, or_false] at hc
  · subst hc; decide
  · rcases hc with rfl | rfl <;> decide

lemma WrittenPower.isPowerCharacter {p : WrittenPower} {c : Char} (hc : c ∈ p.text) :
    isPowerCharacter c = true := by
  rw [text, List.mem_append] at hc
  rcases hc with h | h
  · rcases List.mem_cons.mp h with rfl | h
    · simp [Polynomial.isPowerCharacter, p.name.isNameStart_first]
    · simp [Polynomial.isPowerCharacter, p.name.isWord_of_mem c h]
  · cases he : p.exponent with
    | none => simp [he] at h
    | some e =>
        rw [he, Option.elim_some, List.mem_append] at h
        rcases h with h | h
        · exact e.1.isPowerCharacter h
        · simp [Polynomial.isPowerCharacter, e.2.isDecimal_of_mem c h]

lemma WrittenBody.isPowerCharacter {b : WrittenBody} {c : Char} (hc : c ∈ b.tailText) :
    isPowerCharacter c = true := by
  rw [tailText, List.mem_append] at hc
  rcases hc with h | h
  · rw [asteriskText] at h
    split at h
    · rw [List.mem_singleton.mp h]
      decide
    · cases h
  · cases hp : b.power with
    | none => simp [hp] at h
    | some p =>
        rw [hp] at h
        exact p.isPowerCharacter h

/-- The characters that a term without its sign is made of. -/
def isTermCharacter (c : Char) : Bool :=
  isPowerCharacter c || ['.', '/', '(', ')'].contains c

lemma isTermCharacter_of_mem_number {n : WrittenNumber} {c : Char} (hc : c ∈ n.text) :
    isTermCharacter c = true := by
  rcases WrittenNumber.mem_text hc with h | rfl | rfl
  · simp [isTermCharacter, isPowerCharacter, h]
  · decide
  · decide

lemma WrittenCoefficient.isTermCharacter {k : WrittenCoefficient} {c : Char} (hc : c ∈ k.text) :
    isTermCharacter c = true := by
  rw [text] at hc
  split at hc
  · simp only [List.cons_append, List.mem_cons, List.mem_append, List.not_mem_nil, or_false] at hc
    rcases hc with rfl | h | rfl
    · decide
    · exact isTermCharacter_of_mem_number h
    · decide
  · exact isTermCharacter_of_mem_number hc

lemma WrittenBody.isTermCharacter {b : WrittenBody} {c : Char} (hc : c ∈ b.text) :
    isTermCharacter c = true := by
  rw [text, List.mem_append] at hc
  rcases hc with h | h
  · cases hk : b.coefficient with
    | none => simp [hk] at h
    | some k =>
        rw [hk] at h
        exact k.isTermCharacter h
  · rw [Polynomial.isTermCharacter, b.isPowerCharacter h, Bool.true_or]

lemma isSign_of_isTermCharacter {c : Char} (h : isTermCharacter c = true) : isSign c = false := by
  rw [isSign, Bool.or_eq_false_iff, decide_eq_false_iff_not, decide_eq_false_iff_not]
  constructor <;> rintro rfl <;> exact absurd h (by decide)

lemma WrittenBody.text_ne_nil (b : WrittenBody) : b.text ≠ [] := by
  intro h
  rw [text, List.append_eq_nil_iff, tailText, List.append_eq_nil_iff] at h
  obtain ⟨hk, -, hp⟩ := h
  rcases b.coefficient_or_power with hsome | hsome
  · obtain ⟨k, hk'⟩ := Option.isSome_iff_exists.mp hsome
    rw [hk', Option.elim_some, WrittenCoefficient.text] at hk
    obtain ⟨c, cs, hcs, -⟩ := k.number.exists_text_eq_cons
    split at hk
    · cases hk
    · rw [hcs] at hk
      cases hk
  · obtain ⟨p, hp'⟩ := Option.isSome_iff_exists.mp hsome
    rw [hp'] at hp
    cases hp

lemma TermSign.isSign_char (s : TermSign) : isSign s.char = true := by cases s <;> rfl

lemma TermSign.char_ne (s : TermSign) {c : Char} (hc : isSign c = false) : s.char ≠ c := by
  rintro rfl
  rw [s.isSign_char] at hc
  cases hc

/-- A sum is made of the characters of its terms and of signs. -/
lemma WrittenSum.mem_text {w : WrittenSum} {c : Char} (hc : c ∈ w.text) :
    isTermCharacter c = true ∨ isSign c = true := by
  rw [text, List.mem_append, List.mem_append] at hc
  rcases hc with (h | h) | h
  · obtain ⟨s, -, rfl⟩ := Option.mem_map.mp (Option.mem_toList.mp h)
    exact .inr s.isSign_char
  · exact .inl (w.first.isTermCharacter h)
  · obtain ⟨t, -, h⟩ := List.mem_flatMap.mp h
    rcases List.mem_cons.mp h with rfl | h
    · exact .inr t.sign.isSign_char
    · exact .inl (t.body.isTermCharacter h)

lemma WrittenSum.not_mem_text (w : WrittenSum) {c : Char}
    (hc : isTermCharacter c = false ∧ isSign c = false) : c ∉ w.text := fun h =>
  (mem_text h).elim (by simp [hc.1]) (by simp [hc.2])

lemma WrittenSum.text_ne_nil (w : WrittenSum) : w.text ≠ [] := by
  rw [text]
  simp [w.first.text_ne_nil]

end Polynomial

end ExactAlgebra
