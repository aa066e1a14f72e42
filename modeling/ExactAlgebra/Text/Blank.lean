/-!
Blank characters: the white space of the Unicode standard, together with the
four separators `U+001C` to `U+001F`.

* `isBlank` is the class, `strip` removes it from both ends of a text.
* `dropSpaces` removes the ASCII space from everywhere in a text.
-/

namespace ExactAlgebra.Text

/-- The blank characters. -/
def isBlank (c : Char) : Bool :=
  let n := c.toNat
  (0x09 ≤ n && n ≤ 0x0d) || (0x1c ≤ n && n ≤ 0x20) || n = 0x85 || n = 0xa0 || n = 0x1680
    || (0x2000 ≤ n && n ≤ 0x200a) || n = 0x2028 || n = 0x2029 || n = 0x202f || n = 0x205f
    || n = 0x3000

/-- A text without the blanks at its two ends. -/
def strip (cs : List Char) : List Char :=
  ((cs.dropWhile isBlank).reverse.dropWhile isBlank).reverse

/-- A text without any ASCII space, which is the only blank that is allowed
inside a text and means nothing there. -/
def dropSpaces (cs : List Char) : List Char :=
  cs.filter (· != ' ')

end ExactAlgebra.Text
