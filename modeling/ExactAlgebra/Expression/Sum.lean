import ExactAlgebra.Expression.Sign

/-!
Sums of forms: like terms are added.

* `Form.addTerms` is the sum of a list of forms. Numbers are added to one number, terms that
  differ in the coefficient only become one term, and terms with the coefficient zero are
  left out.
* The infinite value takes up every constant that is added to it; two infinite values have
  no sum.
-/

namespace ExactAlgebra.Form

/-- Joins neighbours in a list of forms with coefficients that are the same form. -/
def joinLike : List (Form × Rat) → List (Form × Rat)
  | [] => []
  | (f, c) :: rest =>
    match joinLike rest with
    | [] => [(f, c)]
    | (g, d) :: joined => if f == g then (f, c + d) :: joined else (f, c) :: (g, d) :: joined

/-- Terms without their coefficients, in order, with the sums of the coefficients. -/
def likeTerms (ts : List Form) : List (Form × Rat) :=
  let split := ts.map fun t => (t.coefficient.2, t.coefficient.1)
  (joinLike (split.mergeSort fun a b => (order a.1 b.1).isLE)).filter fun t => t.2 != 0

/-- A form that is no number with a coefficient. A sum with a coefficient is not
distributed. -/
def ofLikeTerm (t : Form × Rat) : Form :=
  match t with
  | (sum ts, c) => if c = 1 then sum ts else product [number c, sum ts]
  | (f, c) => scaleTerm c f

/-- Whether a form is the infinite value. -/
def isInfinite : Form → Bool
  | infinite => true
  | _ => false

/-- Whether a form is the undefined value. -/
def isUndefined : Form → Bool
  | undefined => true
  | _ => false

/-- Whether a form is a number. -/
def isNumber : Form → Bool
  | number _ => true
  | _ => false

/-- The sum of terms that are no sums. -/
def addFlatTerms (ts : List Form) : Form :=
  let infinities := ts.filter isInfinite
  if ts.any isUndefined || 1 < infinities.length then undefined
  else
    let constant := (ts.filterMap toNumber?).foldl (· + ·) 0
    let others := (likeTerms (ts.filter fun t => !t.isNumber && !t.isInfinite)).map ofLikeTerm
    if infinities.isEmpty then
      ofTerms (if constant = 0 then others else number constant :: others)
    else ofTerms (infinite :: others.filter fun t => t.sign?.isNone)

/-- The sum of forms. -/
def addTerms (fs : List Form) : Form :=
  let total := addFlatTerms (fs.flatMap terms)
  if total.terms.any isSum then addFlatTerms (total.terms.flatMap terms) else total

/-- The sum of two forms. -/
def add (a b : Form) : Form := addTerms [a, b]

end ExactAlgebra.Form
