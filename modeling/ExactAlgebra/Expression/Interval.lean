import ExactAlgebra.Integer.Root

/-!
Intervals on a binary grid: bounds for real numbers that are computed from rational
numbers, roots, π and sines.

The ends of an interval are multiples of `2 ^ -gridBits`, and every operation rounds its
result outwards, so that the interval holds the exact value if the operands do.

* `ofRat`, `add`, `neg`, `mul`, `inverse?`, `root` are the algebraic operations.
* `Interval.pi` bounds π, `sine` and `cosine` bound the values of a sine and a cosine.
-/

namespace ExactAlgebra

/-- The number of binary places of the grid. -/
def gridBits : Nat := 160

/-- The number of grid steps in one. -/
def gridUnit : Int := Int.pow 2 gridBits

/-- An interval between two multiples of the grid step. -/
structure Interval where
  lower : Int
  upper : Int

namespace Interval

/-- The quotient of two integers, rounded up. -/
def ceilDiv (a b : Int) : Int := -((-a).fdiv b)

/-- The smallest interval that holds a rational number. -/
def ofRat (r : Rat) : Interval :=
  ⟨(r.num * gridUnit).fdiv r.den, ceilDiv (r.num * gridUnit) r.den⟩

/-- Zero alone. -/
def zero : Interval := ⟨0, 0⟩

/-- Whether zero alone is in an interval. -/
def isZero (a : Interval) : Bool := a.lower == 0 && a.upper == 0

/-- An interval that is wider by a number of steps to both sides. -/
def widen (a : Interval) (steps : Int) : Interval := ⟨a.lower - steps, a.upper + steps⟩

/-- The sum. -/
def add (a b : Interval) : Interval := ⟨a.lower + b.lower, a.upper + b.upper⟩

/-- The negative. -/
def neg (a : Interval) : Interval := ⟨-a.upper, -a.lower⟩

/-- The difference. -/
def sub (a b : Interval) : Interval := a.add b.neg

/-- The product. -/
def mul (a b : Interval) : Interval :=
  let p := a.lower * b.lower
  let q := a.lower * b.upper
  let r := a.upper * b.lower
  let s := a.upper * b.upper
  ⟨(min (min p q) (min r s)).fdiv gridUnit, ceilDiv (max (max p q) (max r s)) gridUnit⟩

/-- The inverse, if zero is not in the interval. -/
def inverse? (a : Interval) : Option Interval :=
  if 0 < a.lower ∨ a.upper < 0 then
    some ⟨(gridUnit * gridUnit).fdiv a.upper, ceilDiv (gridUnit * gridUnit) a.lower⟩
  else none

/-- The `k`-th root of an interval without negative numbers. -/
def root (a : Interval) (k : Nat) : Interval :=
  let scaled (end_ : Int) : Nat := end_.toNat * Nat.pow 2 (gridBits * (k - 1))
  ⟨Integer.floorRoot (scaled a.lower) k, Integer.floorRoot (scaled a.upper) k + 1⟩

/-- The arc tangent of `1 / n` in grid steps, up to the given number of terms of its
series, each of which is wrong by less than a step. -/
def arctanSteps (n : Nat) (terms : Nat) : Int :=
  (List.range terms).foldl
    (fun (total : Int) (i : Nat) =>
      let term := gridUnit / (((2 * i + 1) * Nat.pow n (2 * i + 1) : Nat) : Int)
      if i % 2 = 0 then total + term else total - term) 0

/-- The number π, as `16 arctan (1/5) - 4 arctan (1/239)`. -/
def pi : Interval :=
  let steps := 16 * arctanSteps 5 80 - 4 * arctanSteps 239 80
  (⟨steps, steps⟩ : Interval).widen 4096

/-- The sine of a number of grid steps between `-4` and `4`, by its series. -/
def sineSteps (x : Int) : Int :=
  let square := (x * x).fdiv gridUnit
  ((List.range 50).foldl
    (fun (state : Int × Int) (i : Nat) =>
      let (total, term) := state
      let divisor : Nat := (2 * i + 2) * (2 * i + 3)
      (total + term, -((term * square).fdiv (gridUnit * divisor))))
    (0, x)).1

/-- The sine: whole turns are taken off, and the sine of the middle is wrong by no more than
half of the width. -/
def sine (a : Interval) : Interval :=
  let turns := (a.lower + pi.lower).fdiv (2 * pi.lower)
  let reduced := a.sub ((pi.add pi).mul (ofRat turns))
  let middle := (reduced.lower + reduced.upper) / 2
  let value := sineSteps middle
  (⟨value, value⟩ : Interval).widen (reduced.upper - reduced.lower + 4096)

/-- The cosine, as the sine of an angle that is larger by a quarter turn. -/
def cosine (a : Interval) : Interval := (a.add (pi.mul (ofRat (1 / 2)))).sine

end Interval

end ExactAlgebra
