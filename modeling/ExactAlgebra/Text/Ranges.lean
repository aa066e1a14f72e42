/-!
Classes of characters given as tables of ranges.
-/

namespace ExactAlgebra.Text

/-- Membership of a code point in an ascending table of ranges, each given by
its first and its last member: the search stops at the first range that begins
beyond the code point. -/
def inRanges (n : Nat) : List (Nat × Nat) → Bool
  | [] => false
  | (first, last) :: table => first ≤ n && (n ≤ last || inRanges n table)

end ExactAlgebra.Text
