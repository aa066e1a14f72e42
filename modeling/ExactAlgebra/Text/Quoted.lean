import ExactAlgebra.Text.Printable

/-!
Quoted text, as messages show it.

* `quoteFor` chooses the quotation mark: a single one, unless the text holds
  single marks and no double ones.
* `quoted` writes the text between two marks. The mark itself and the backslash
  are escaped by a backslash, three control characters by a letter, and every
  other character that is not printable by its code point in hexadecimal.
-/

namespace ExactAlgebra.Text

/-- The last `width` hexadecimal digits of a number, in lower case. -/
def hexDigits : (width : Nat) → Nat → List Char
  | 0, _ => []
  | width + 1, n => hexDigits width (n / 16) ++ [Nat.digitChar (n % 16)]

/-- The quotation mark that a text is written between. -/
def quoteFor (cs : List Char) : Char :=
  if cs.contains '\'' && !cs.contains '"' then '"' else '\''

/-- A character as it stands between two quotation marks. -/
def escaped (mark c : Char) : List Char :=
  if c = mark ∨ c = '\\' then ['\\', c]
  else if c = '\n' then ['\\', 'n']
  else if c = '\r' then ['\\', 'r']
  else if c = '\t' then ['\\', 't']
  else if isPrintable c then [c]
  else if c.toNat < 0x100 then '\\' :: 'x' :: hexDigits 2 c.toNat
  else if c.toNat < 0x10000 then '\\' :: 'u' :: hexDigits 4 c.toNat
  else '\\' :: 'U' :: hexDigits 8 c.toNat

/-- A sequence of characters between two quotation marks. -/
def quotedChars (cs : List Char) : List Char :=
  let mark := quoteFor cs
  mark :: cs.flatMap (escaped mark) ++ [mark]

/-- A text between two quotation marks. -/
def quoted (s : String) : String := String.ofList (quotedChars s.toList)

/-- The bytes of a text between two quotation marks, where every byte beyond ASCII is
escaped. -/
def quotedBytes (s : String) : String :=
  let cs := s.toUTF8.toList.map fun b => Char.ofNat b.toNat
  let mark := quoteFor cs
  String.ofList (mark :: cs.flatMap (fun c =>
    if c.toNat < 0x80 then escaped mark c else '\\' :: 'x' :: hexDigits 2 c.toNat) ++ [mark])

end ExactAlgebra.Text
