import ExactAlgebra.Expression.Angle

/-!
Expansion: products of sums are multiplied out, everywhere in a form.

An expansion goes through a form with one rule after the other: powers of sums, products of
sums, powers of products, powers with sums as exponents; and then again with the first two,
until nothing changes. A rule acts on the parts of a form before it acts on the form, and a
form whose parts have changed is evaluated anew.

* `Form.everywhere` applies a rule to every part of a form.
* `Form.expandPower`, `Form.expandProduct`, `Form.expandBase`, `Form.expandExponent` are the
  rules.
* `Form.expand` is the expansion.
-/

namespace ExactAlgebra.Form

/-! ### Rules for all parts -/

mutual

/-- A form with a rule applied to all its parts, and then to itself. -/
def everywhere (rule : Form → Form) : Form → Form
  | power b e =>
    let b' := everywhere rule b
    let e' := everywhere rule e
    rule (if b' == b && e' == e then power b e else pow b' e')
  | function f a =>
    let a' := everywhere rule a
    rule (if a' == a then function f a else apply f a')
  | product fs =>
    let fs' := everywhereInAll rule fs
    rule (if fs' == fs then product fs else mulFactors fs')
  | sum ts =>
    let ts' := everywhereInAll rule ts
    rule (if ts' == ts then sum ts else addTerms ts')
  | f => f

/-- The forms of a list with a rule applied to all their parts. -/
def everywhereInAll (rule : Form → Form) : List Form → List Form
  | [] => []
  | f :: fs => everywhere rule f :: everywhereInAll rule fs

end

/-! ### Powers of sums -/

/-- The sum of the products of the terms of two sums. -/
def crossTerms (ss ts : List Form) : Form := addTerms (ss.flatMap fun s => ts.map fun t => mul s t)

/-- The power of a sum with a natural exponent, multiplied out. -/
def expandedPower (ts : List Form) : Nat → Form
  | 0 => number 1
  | 1 => sum ts
  | n + 1 => crossTerms (expandedPower ts n).terms ts

/-- A power of a sum, multiplied out as far as its exponent is above one. -/
def expandPositivePower (ts : List Form) (e : Rat) : Form :=
  let whole := e.floor
  if whole ≤ 0 then power (sum ts) (number e)
  else if e.den = 1 then expandedPower ts whole.toNat
  else
    let rest := pow (sum ts) (number (e - whole))
    addTerms ((expandedPower ts whole.toNat).terms.map fun t => mul t rest)

/-- The rule for powers: a power of a sum is multiplied out, in the denominator too if the
exponent is below minus one; a power of a number whose exponent is a sum with a number in it
is split. -/
def expandPower : Form → Form
  | power (sum ts) (number e) =>
    if 0 < e then expandPositivePower ts e
    else if e < -1 then (expandPositivePower ts (-e)).pow (number (-1))
    else power (sum ts) (number e)
  | power (number b) (sum (number c :: ts)) =>
    if b = 0 then power (number b) (sum (number c :: ts))
    else mul (pow (number b) (number c)) (pow (number b) (ofTerms ts))
  | f => f

/-! ### Fractions -/

/-- Whether an exponent counts as negative: it is known to be, or nothing is known about it
and a sign can be taken out. -/
def isNegativeExponent (e : Form) : Bool :=
  match e.sign? with
  | some .negative => true
  | some _ => false
  | none => e.isProduct && e.coefficient.1 < 0

/-- A sum of fractions as a fraction: numerators over one denominator are added, and then
all fractions brought to the product of the denominators. -/
def addFractions (parts : List (Form × Form)) : Form × Form :=
  let groups := (groupByKey (parts.map fun p => (p.2, p.1))).map fun g => (addTerms g.2, g.1)
  match groups with
  | [] => (number 0, number 1)
  | g :: rest =>
    rest.foldl
      (fun total p => (add (mul total.1 p.2) (mul p.1 total.2), mul total.2 p.2)) g

mutual

/-- A form as a fraction. A base is taken apart only if its denominator is known to be
positive, or the exponent is an integer. -/
def asFraction : Form → Form × Form
  | number r => (number r.num, number r.den)
  | power b e =>
    let (n, d) := asFraction b
    let isInteger := e.toNumber?.any fun r => r.den == 1
    let (n, d) :=
      if isInteger then (n, d)
      else match d.sign? with
        | some .positive => (n, d)
        | some .negative => (n.negate, d.negate)
        | _ => (b, number 1)
    if isNegativeExponent e then (pow d e.negate, pow n e.negate) else (pow n e, pow d e)
  | product fs =>
    let parts := asFractions fs
    (mulFactors (parts.map (·.1)), mulFactors (parts.map (·.2)))
  | sum ts => addFractions (asFractions ts)
  | f => (f, number 1)

/-- The forms of a list as fractions. -/
def asFractions : List Form → List (Form × Form)
  | [] => []
  | f :: fs => asFraction f :: asFractions fs

end

/-- A factor as a fraction: a power with a negative exponent is a denominator. -/
def splitFactor : Form → Form × Form
  | number r => (number r.num, number r.den)
  | power b e =>
    match e.sign? with
    | some .negative => (number 1, pow b e.negate)
    | some _ => (power b e, number 1)
    | none => if e.isProduct then asFraction (power b e) else (power b e, number 1)
  | f => (f, number 1)

/-! ### Products of sums -/

/-- A product of sums and other factors, multiplied out. -/
def multiplyOut : Form → Form
  | product fs =>
    match fs.filter isSum with
    | [] => product fs
    | s :: sums =>
      let terms := (sums.foldl (fun total s => crossTerms total.terms s.terms) s).terms
      let plain := mulFactors (fs.filter fun f => !f.isSum)
      addTerms (terms.map fun t => mul plain t)
  | f => f

/-- The rule for products: the sums in a product are multiplied out, and those in its
denominator by themselves. -/
def expandProduct : Form → Form
  | product fs =>
    let parts := fs.map splitFactor
    let n := mulFactors (parts.map (·.1))
    let d := mulFactors (parts.map (·.2))
    let quotient := if d.isProduct then div (multiplyOut n) (multiplyOut d) else div n d
    multiplyOut quotient
  | f => f

/-! ### Powers of products, and sums as exponents -/

/-- The rule for powers of products: the factors that may leave the power do. -/
def expandBase : Form → Form
  | power (product fs) e =>
    if e.toNumber?.any fun r => r.den == 1 then mulFactors (fs.map fun f => pow f e)
    else separatePower fs e
  | f => f

/-- Whether a form is known not to be zero. -/
def isKnownNonzero (f : Form) : Bool :=
  match f.sign? with
  | some .zero | none => false
  | _ => true

/-- The rule for sums as exponents: a power is the product of the powers with the terms, if
the base is known not to be zero or the terms are known to have the same sign. -/
def expandExponent : Form → Form
  | power b (sum ts) =>
    let known := ts.map sign?
    let sameSign := (known.all fun s => s == some .positive || s == some .zero) ||
      known.all fun s => s == some .negative || s == some .zero
    if b.isKnownNonzero || sameSign then mulFactors (ts.map fun t => pow b t)
    else power b (sum ts)
  | f => f

/-! ### Expansion -/

/-- The rules for powers and products, until nothing changes. -/
def expandRepeatedly : (fuel : Nat) → Form → Form
  | 0, f => f
  | fuel + 1, f =>
    let g := (f.everywhere expandPower).everywhere expandProduct
    if g == f then f else expandRepeatedly fuel g

/-- How often the rules for powers and products are applied at most. -/
def expansionRounds : Nat := 50

/-- A form, multiplied out. -/
def expand (f : Form) : Form :=
  let f := (f.everywhere expandPower).everywhere expandProduct
  let f := (f.everywhere expandBase).everywhere expandExponent
  expandRepeatedly expansionRounds f

end ExactAlgebra.Form
