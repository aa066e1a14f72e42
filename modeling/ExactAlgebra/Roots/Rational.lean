import ExactAlgebra.Integer.Divisors
import ExactAlgebra.Polynomial.Division
import ExactAlgebra.Polynomial.Printer

/-!
The rational roots of a polynomial.

By the rational root theorem a root `p / q` in lowest terms of an integer polynomial with
nonzero constant term has a numerator that divides the constant term and a denominator
that divides the leading coefficient. The candidates of that form are finite in number
and are tested one by one.

* `insertAscending` keeps a strictly ascending list.
* `withoutLowZeros` divides out the largest power of the variable.
* `rationalRoots` lists the roots in ascending order, each once, within limits on the
  trial divisions and on the number of candidates.
-/

namespace ExactAlgebra

/-- A strictly ascending list with a further member; a member that is there already is
not repeated. -/
def insertAscending (r : Rat) : List Rat → List Rat
  | [] => [r]
  | s :: rest =>
    if r < s then r :: s :: rest
    else if r = s then s :: rest
    else s :: insertAscending r rest

/-- The numbers of a list in ascending order, each once. -/
def ascendingSet (rs : List Rat) : List Rat := rs.foldr insertAscending []

theorem mem_insertAscending {r x : Rat} {l : List Rat} :
    x ∈ insertAscending r l ↔ x = r ∨ x ∈ l := by
  induction l with
  | nil => simp [insertAscending]
  | cons s rest ih =>
    rw [insertAscending]
    split
    · simp
    · split
      · rename_i h; simp [h]
      · rw [List.mem_cons, ih, List.mem_cons, or_left_comm]

/-- The ascending set has the members of the list. -/
theorem mem_ascendingSet {x : Rat} {l : List Rat} : x ∈ ascendingSet l ↔ x ∈ l := by
  induction l with
  | nil => simp [ascendingSet]
  | cons r l ih =>
    change x ∈ insertAscending r (ascendingSet l) ↔ _
    rw [mem_insertAscending, ih, List.mem_cons]

namespace Polynomial

/-- The candidates that one search may test when no limit is given. -/
def defaultRootCandidates : Int := 200000

/-- The polynomial whose coefficients the root theorem reads: the polynomial itself if
they are integers, and its primitive part if denominators may be cleared. -/
def integerForm? (p : Polynomial) (clearDenominators : Bool) : Except Error Polynomial :=
  if p.isIntegral then .ok p
  else if clearDenominators then .ok p.primitive
  else .error (.fractionalCoefficients p.toText)

/-- The polynomial divided by the largest power of the variable that divides it. -/
def withoutLowZeros (p : Polynomial) : Polynomial :=
  ofList (p.ascending.dropWhile (· = 0)) p.label

/-- The quotients `p / q` and `-p / q` of the members of two lists. -/
def rootCandidates (ps qs : List Nat) : List Rat :=
  ps.flatMap fun (p : Nat) => qs.flatMap fun (q : Nat) =>
    [(p : Rat) / (q : Rat), -((p : Rat) / (q : Rat))]

/-- The nonzero rational roots of an integer polynomial with nonzero constant term. -/
def nonzeroRoots (p : Polynomial) (limit : Int) : Except Error (List Rat) :=
  if p.degree < 1 then .ok []
  else do
    let ps ← Integer.divisors (p.coefficient 0).num Integer.defaultTrialDivisions
    let qs ← Integer.divisors p.leadingCoefficient.num Integer.defaultTrialDivisions
    if limit < 2 * ps.length * qs.length then
      .error (.limitExceeded .rationalRoots (toString limit))
    else .ok ((rootCandidates ps qs).filter fun r => p.eval r = 0)

/-- The rational roots of a nonzero polynomial in ascending order, each once. -/
def rationalRoots (p : Polynomial) (clearDenominators : Bool) (limit : Int) :
    Except Error (List Rat) :=
  if p.isZero then .error .rootsOfZero
  else do
    let work ← p.integerForm? clearDenominators
    let roots ← work.withoutLowZeros.nonzeroRoots limit
    .ok (ascendingSet (if work.coefficient 0 = 0 then 0 :: roots else roots))

end Polynomial

end ExactAlgebra
