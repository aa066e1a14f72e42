import ExactAlgebra.Expression.Basic
import ExactAlgebra.Expression.Radical
import ExactAlgebra.Expression.Sum

/-!
Products and powers of forms.

In a product, powers of one base are joined when their exponents differ in the coefficient
only, numbers with the same exponent are multiplied, and roots of numbers are brought to
simplest form. A number times a sum is distributed over the sum; no other product is
multiplied out. A power of a product is the product of the powers when the exponent is an
integer, and a factor that is known to be positive leaves a root. A power of a power is the
power with the product of the exponents when that is right for complex numbers on the
principal branch: for an integer outside, and for an inner exponent between `-1` and `1`.

* `Form.mulFactors` is the product of a list of forms.
* `Form.pow` is the power of a form with a form as the exponent.
-/

namespace ExactAlgebra.Form

/-- One half. -/
def half : Rat := 1 / 2

/-! ### Powers of numbers -/

/-- The power of `-1` with a rational exponent, as factors: whole powers are taken out, and
the square root is the imaginary unit. -/
def unitPower (e : Rat) : List Form :=
  let whole := e.floor
  let rest := e - whole
  let sign : List Form := if whole % 2 = 0 then [] else [number (-1)]
  if rest = 0 then sign
  else if rest = half then sign ++ [imaginaryUnit]
  else sign ++ [power (number (-1)) (number rest)]

/-- The factors of a radical. -/
def radicalFactors (r : Radical) : List Form :=
  let roots := r.roots.map fun f => power (number f.1) (number f.2)
  if r.coefficient = 1 then roots else number r.coefficient :: roots

/-- Whether a radical is the root that it was made of. -/
def isPlainRoot (r : Radical) : Bool :=
  match r.roots with
  | [_] => r.coefficient == 1
  | _ => false

/-- The factors of the power of a negative integer with a positive fraction as the exponent.
The sign stays with a root from which nothing can be taken out. -/
def negativeIntegerPower (n : Nat) (e : Rat) : List Form :=
  if n = 1 then unitPower e
  else if e = half then imaginaryUnit :: radicalFactors (.ofNat n e)
  else
    let r := Radical.ofNat n e
    if isPlainRoot r && r.roots.all fun f => f.1 == n && f.2 == e then
      [power (number (-n)) (number e)]
    else unitPower e ++ radicalFactors r

/-- The factors of the power of a number other than zero with a fraction as the
exponent. -/
def numberPower (r e : Rat) : List Form :=
  if 0 < r then radicalFactors (.ofRat r e)
  else if e < 0 then unitPower e ++ radicalFactors (.ofRat (-r) e)
  else
    let denominator := if r.den = 1 then [] else radicalFactors (.ofRat (1 / (r.den : Rat)) e)
    negativeIntegerPower r.num.natAbs e ++ denominator

/-- The power of a number with an integer exponent. -/
def numberIntPower (r : Rat) (n : Int) : Form :=
  match rationalPow? r n with
  | some s => number s
  | none => infinite

/-! ### Collecting factors -/

/-- The factors of a product, sorted by kind. -/
structure Collection where
  /-- The product of the numbers. -/
  coefficient : Rat
  hasInfinity : Bool
  isUndefined : Bool
  /-- Bases with exponents. -/
  powers : List (Form × Form)
  /-- Positive numbers with exponents that are no numbers. -/
  numericPowers : List (Form × Form)
  /-- The exponent of `-1`. -/
  unitExponent : Rat
  /-- Natural numbers with fractions as exponents. -/
  roots : List (Nat × Rat)

namespace Collection

/-- No factors. -/
def empty : Collection := ⟨1, false, false, [], [], 0, []⟩

/-- A factor more. -/
def insert (c : Collection) : Form → Collection
  | number r =>
    { c with coefficient := c.coefficient * r, isUndefined := c.isUndefined || (c.hasInfinity && r == 0) }
  | infinite =>
    { c with hasInfinity := true, isUndefined := c.isUndefined || c.coefficient == 0 }
  | undefined => { c with isUndefined := true }
  | imaginaryUnit => { c with unitExponent := c.unitExponent + half }
  | power (number b) (number e) =>
    if b.den = 1 ∧ b ≠ 0 then
      let c := if b < 0 then { c with unitExponent := c.unitExponent + e } else c
      let n := b.num.natAbs
      if n = 1 then c else { c with roots := c.roots ++ [(n, e)] }
    else { c with powers := c.powers ++ [(number b, number e)] }
  | f =>
    let (b, e) := f.baseExponent
    match f, b with
    | power .., number r =>
      if 0 < r then { c with numericPowers := c.numericPowers ++ [(b, e)] }
      else { c with powers := c.powers ++ [(b, e)] }
    | _, _ => { c with powers := c.powers ++ [(b, e)] }

end Collection

/-- Adds a coefficient to that of an exponent which is there already, or adds the exponent
to a list. -/
def addExponent (e : Form) (c : Rat) : List (Form × Rat) → List (Form × Rat)
  | [] => [(e, c)]
  | (f, d) :: rest => if e == f then (f, d + c) :: rest else (f, d) :: addExponent e c rest

/-- Adds an exponent to those of a base. -/
def addPower (b e : Form) (c : Rat) :
    List (Form × List (Form × Rat)) → List (Form × List (Form × Rat))
  | [] => [(b, [(e, c)])]
  | (a, es) :: rest =>
    if a == b then (a, addExponent e c es) :: rest else (a, es) :: addPower b e c rest

/-- Joins powers of the same base whose exponents differ in the coefficient only. -/
def joinPowers (ps : List (Form × Form)) : List (Form × Form) :=
  let gathered := ps.foldl
    (fun found p => addPower p.1 p.2.coefficient.2 p.2.coefficient.1 found) []
  gathered.flatMap fun g => g.2.map fun e => (g.1, e.1.scale e.2)

/-- Puts a value under a key of a list. -/
def insertUnder {α β : Type} [BEq α] (key : α) (value : β) :
    List (α × List β) → List (α × List β)
  | [] => [(key, [value])]
  | (k, vs) :: rest =>
    if k == key then (k, vs ++ [value]) :: rest else (k, vs) :: insertUnder key value rest

/-- The values of a list of pairs under their keys, in the order in which the keys come
first. -/
def groupByKey {α β : Type} [BEq α] (ps : List (α × β)) : List (α × List β) :=
  ps.foldl (fun groups p => insertUnder p.1 p.2 groups) []

/-! ### Products of roots -/

/-- A power of a natural number with the integer part of the exponent taken out. -/
def takeWhole (n : Nat) (e : Rat) : Rat × List (Nat × Rat) :=
  let whole := e.floor
  let rest := e - whole
  ((n : Rat) ^ whole.toNat, if rest = 0 then [] else [(n, rest)])

/-- What is left of a root when its common divisors with other roots are split off, with
those other roots, the powers of the divisors and the numbers taken out. -/
structure RootSplit where
  rest : Nat
  others : List (Nat × Rat)
  grown : List (Nat × Rat)
  coefficient : Rat

/-- Splits the common divisors with other roots off a root. -/
def splitCommon (n : Nat) (e : Rat) (others : List (Nat × Rat)) : RootSplit :=
  others.foldl
    (fun s f =>
      let g := Nat.gcd s.rest f.1
      if g ≤ 1 then { s with others := s.others ++ [f] }
      else
        let (c, grown) := takeWhole g (e + f.2)
        ⟨s.rest / g, s.others ++ [(f.1 / g, f.2)], s.grown ++ grown, s.coefficient * c⟩)
    ⟨n, [], [], 1⟩

/-- The product of roots of numbers: common divisors of two numbers are split off, so that
in the end no two numbers under different roots have one. -/
def simplifyRoots : (fuel : Nat) → List (Nat × Rat) → Radical
  | 0, roots => ⟨1, roots⟩
  | _ + 1, [] => .const 1
  | fuel + 1, (n, e) :: rest =>
    if n ≤ 1 then simplifyRoots fuel rest
    else
      let s := splitCommon n e rest
      let first := if s.rest ≤ 1 then .const 1 else Radical.ofNat s.rest e
      ((Radical.const s.coefficient).mul first).mul (simplifyRoots fuel (s.others ++ s.grown))

/-- The product of powers of natural numbers in simplest form: the exponents of each number
are added, and the numbers with the same exponent multiplied. -/
def combineRoots (roots : List (Nat × Rat)) : Rat × List (Rat × Nat) :=
  let byNumber := (groupByKey roots).map fun g => (g.2.foldl (· + ·) 0, g.1)
  let byExponent := (groupByKey byNumber).map fun g => (g.2.foldl (· * ·) 1, g.1)
  let whole := byExponent.map fun f => takeWhole f.1 f.2
  let fuel := roots.foldl (fun total f => total + f.1.log2 + 2) 1
  let simple := simplifyRoots (fuel * fuel) (whole.flatMap fun w => w.2)
  let joined := (groupByKey (simple.roots.map fun f => (f.2, f.1))).map fun g =>
    (g.1, g.2.foldl (· * ·) 1)
  (whole.foldl (fun c w => c * w.1) simple.coefficient, joined)

/-- The factors of a product of roots of numbers and a power of `-1` with an exponent between
zero and one. The sign goes under a root with the same exponent. -/
def rootFactors (roots : List (Rat × Nat)) (unit : Rat) : List Form :=
  let plain := roots.map fun f => (f.1, (f.2 : Rat))
  let signed : List (Rat × Rat) × List Form :=
    if unit = 0 then (plain, [])
    else if unit = half then (plain, [imaginaryUnit])
    else if plain.any fun f => f.1 == unit then
      (plain.map fun f => if f.1 = unit then (f.1, -f.2) else f, [])
    else (plain, [power (number (-1)) (number unit)])
  signed.2 ++ signed.1.flatMap fun f =>
    if f.1.den = 1 then [numberIntPower f.2 f.1.num] else numberPower f.2 f.1

/-! ### Products -/

/-- Whether a factor has to be collected again with the others: a product, a number, or a
power of a number with a number as the exponent. -/
def mustCollect : Form → Bool
  | product _ => true
  | number _ => true
  | infinite => true
  | undefined => true
  | imaginaryUnit => true
  | power (number _) (number _) => true
  | _ => false

/-- A number times factors in no order, where a number before a single sum is
distributed. -/
def ofCoefficient (c : Rat) (fs : List Form) : Form :=
  match sorted fs with
  | [] => number c
  | [sum ts] => scale c (sum ts)
  | fs => if c = 1 then ofFactors fs else product (number c :: fs)

/-- Whether a power has an infinite base, so that no power of it can be cancelled. -/
def hasInfiniteBase (b : Form) : Bool := (b.isSum || b.isProduct) &&
  (b.terms ++ b.factors).any isInfinite

/-- Whether two powers have a common base and could be one. -/
def needsJoining (fs : List Form) : Bool :=
  (joinPowers (fs.map baseExponent)).length != fs.length

/-- Whether a form is known to have a real part that is not negative. -/
def hasNonnegativeRealPart (f : Form) : Bool :=
  match f.enclosure? with
  | some a => 0 ≤ a.re.lower
  | none => false

/-- Whether a form is known to be a real number. -/
def isRealConstant (f : Form) : Bool :=
  match f.enclosure? with
  | some a => a.isReal
  | none => false

/-- Whether a form is known to be a real number between `-1` and `1`. -/
def isSmall (f : Form) : Bool :=
  match f.enclosure? with
  | some a => a.isReal && -gridUnit < a.re.lower && a.re.upper < gridUnit
  | none => false

/-- Whether a form is the imaginary unit. -/
def isImaginaryUnit : Form → Bool
  | imaginaryUnit => true
  | _ => false

/-- The factors that leave a root and those that stay under it, when the first are known
not to be negative, the second are known to be negative and the third are of unknown sign.
Negative factors leave the root in pairs, with their signs changed. -/
def placeSigns (nonneg neg other : List Form) : List Form × List Form :=
  match neg with
  | [] => (nonneg, other)
  | [f] =>
    match f, other with
    | number r, _ :: _ =>
      if r = -1 then (nonneg, other ++ [f]) else (nonneg ++ [f.negate], other ++ [number (-1)])
    | _, _ => (nonneg, other ++ [f])
  | f :: fs =>
    let (first, others) : Rat × List Form := match f, other with
      | number r, [] => (r, fs)
      | _, _ => (1, f :: fs)
    let sign : Rat := if others.length % 2 = 0 then first else -first
    (nonneg ++ others.map negate, if sign = 1 then other else other ++ [number sign])

/-- The square root of an imaginary number whose half is a square, as a number and what it
multiplies: `1 + i` or `1 - i`, raised to an odd power. -/
def imaginaryRoot? (fs : List Form) (e : Rat) : Option (Rat × Form) :=
  match fs with
  | [number a, imaginaryUnit] =>
    if e.den ≠ 2 then none
    else
      let square := (if a < 0 then -a else a) / 2
      match Integer.exactRoot? square.num.toNat 2, Integer.exactRoot? square.den 2 with
      | some p, some q => do
        let c ← rationalPow? ((p : Rat) / (q : Rat)) e.num
        some (c, sum [number 1, imaginaryUnit.scale (if a < 0 then -1 else 1)])
      | _, _ => none
  | _ => none

/-! ### Products and powers -/

mutual

/-- The product of forms. Factors that are found to be products or numbers only when they
are evaluated are collected once more with the others. -/
def mulWith : (fuel : Nat) → List Form → Form
  | 0, fs => product fs
  | fuel + 1, fs =>
    match fs.filter (· != number 1) with
    | [] => number 1
    | [f] => f
    | fs =>
      let flat := (fs.filter fun f => !f.isProduct) ++ (fs.filter isProduct).flatMap factors
      let c := flat.foldl Collection.insert .empty
      let joined := joinPowers c.powers
      let cancelled := joined.filter fun p => p.2 == number 0
      let powers := (joined.filter fun p => p.2 != number 0).map fun p => powWith fuel p.1 p.2
      let bases := (joinPowers c.numericPowers).filter fun p => p.2 != number 0
      let numeric := (groupByKey (bases.map fun p => (p.2, p.1))).map fun g =>
        powWith fuel (number ((g.2.filterMap toNumber?).foldl (· * ·) 1)) g.1
      let evaluated := powers ++ numeric
      let (rootCoefficient, roots) := combineRoots c.roots
      let whole := c.unitExponent.floor
      let sign : Rat := if whole % 2 = 0 then 1 else -1
      let coefficient := c.coefficient * rootCoefficient * sign
      let parts := rootFactors roots (c.unitExponent - whole)
      if c.isUndefined || cancelled.any fun p => hasInfiniteBase p.1 then undefined
      else if evaluated.any mustCollect || needsJoining evaluated ||
          parts.any fun f => f.isProduct || f.isNumber then
        let rest := number coefficient :: parts ++ evaluated
        mulWith fuel (if c.hasInfinity then infinite :: rest else rest)
      else if c.hasInfinity then
        ofFactors (infinite :: sorted ((evaluated ++ parts).filter fun f => f.sign?.isNone))
      else if coefficient = 0 then number 0
      else ofCoefficient coefficient (evaluated ++ parts)

/-- The power of a form with a form as the exponent. -/
def powWith : (fuel : Nat) → Form → Form → Form
  | 0, b, e => power b e
  | fuel + 1, b, e =>
    match b, e with
    | _, infinite => undefined
    | _, number 0 => number 1
    | b, number 1 => b
    | undefined, _ => undefined
    | _, undefined => undefined
    | number b, number e =>
      if e.den = 1 then numberIntPower b e.num
      else if b = 0 then if 0 < e then number 0 else infinite
      else if b = 1 then number 1
      else mulWith fuel (numberPower b e)
    | number b, e => numberSymbolicPower fuel b e
    | infinite, number e => if 0 < e then infinite else number 0
    | imaginaryUnit, number e => mulWith fuel (unitPower (e / 2))
    | sum ts, number e => sumPower fuel ts e
    | product fs, number e =>
      if e.den = 1 then mulWith fuel (fs.map fun f => powWith fuel f (number e))
      else match imaginaryRoot? fs e with
        | some (c, base) =>
          let p := powWith fuel base (number e.num)
          if c = 1 then p else product [number c, p]
        | none => separated fuel fs (number e)
    | power b e, x => powerPower fuel b e x
    | b, e => power b e

/-- The power of a number with an exponent that is no number. -/
def numberSymbolicPower : (fuel : Nat) → Rat → Form → Form
  | 0, b, e => power (number b) e
  | fuel + 1, b, e =>
    if b = 1 then number 1
    else if b = 0 then
      match e.sign? with
      | some .positive => number 0
      | some .negative => infinite
      | some .nonreal => undefined
      | some .zero => number 1
      | none =>
        let (c, rest) := e.coefficient
        if c < 0 then powWith fuel infinite rest else power (number 0) rest
    else power (number b) e

/-- The power of a sum. The inverse of the sum of a real and an imaginary number is a
multiple of the conjugate, and its square roots are such sums where the norm is a
square. -/
def sumPower : (fuel : Nat) → List Form → Rat → Form
  | 0, ts, e => power (sum ts) (number e)
  | fuel + 1, ts, e =>
    match ts with
    | [number a, t] =>
      match t.coefficient with
      | (c, imaginaryUnit) =>
        let norm := a * a + c * c
        if e = -1 then
          let conjugate := sum [number a, imaginaryUnit.scale (-c)]
          if norm = 1 then conjugate else product [number (1 / norm), conjugate]
        else if e.den = 2 then
          match powWith fuel (number norm) (number half) with
          | number d =>
            let root := powWith fuel (number ((d - a) / 2)) (number half)
            let sign : Rat := if 0 < c then 1 else -1
            let unit := addTerms [number ((d + a) / (sign * c)), imaginaryUnit.scale sign]
            mulWith fuel [powWith fuel root (number e.num), powWith fuel unit (number e.num)]
          | _ => power (sum ts) (number e)
        else power (sum ts) (number e)
      | _ => power (sum ts) (number e)
    | _ => power (sum ts) (number e)

/-- The power of a power `(b ^ e) ^ x`: the exponents are multiplied if `x` is an integer,
if `e` lies between `-1` and `1`, or if `b` is known not to be negative. An even exponent
`e` takes the sign from `b`, and for a negative `b` the square root of an odd power changes
its sign with the number of whole turns that the power makes. -/
def powerPower : (fuel : Nat) → Form → Form → Form → Form
  | 0, b, e, x => power (power b e) x
  | fuel + 1, b, e, x =>
    let merged (b : Form) := powWith fuel b (mulWith fuel [e, x])
    let exponent? := x.toNumber?
    let isHalf := exponent?.any fun r => r.den == 2
    if exponent?.any fun r => r.den == 1 then merged b
    else match e, exponent? with
      | number r, _ =>
        let b := if r.den == 1 && r.num % 2 == 0 && b.sign? == some .negative then b.negate else b
        if r < 1 && -1 < r || b.isNonnegative && r != -1 then merged b
        else if r = -1 && isHalf && b.sign?.isSome then
          if b.sign? = some .negative then
            mulWith fuel [powWith fuel (number (-1)) x, powWith fuel b.negate x.negate]
          else powWith fuel b x.negate
        else if b.isNonnegative || (r < 2 && -2 < r && hasNonnegativeRealPart b) then merged b
        else if isHalf && b.sign? == some .negative then
          let turns := (half - r / 2).floor
          mulWith fuel [number (if turns % 2 = 0 then 1 else -1), merged b]
        else power (power b e) x
      | e, _ =>
        if isSmall e || (isRealConstant e && b.isNonnegative) then merged b
        else power (power b e) x

/-- The power of a product with an exponent that is no integer: the factors that are known
not to be negative leave the power, and pairs of negative factors are made positive. -/
def separated : (fuel : Nat) → List Form → Form → Form
  | 0, fs, e => power (product fs) e
  | fuel + 1, fs, e =>
    let units := fs.filter isImaginaryUnit
    let plain := fs.filter fun f => !f.isImaginaryUnit
    let nonneg := plain.filter isNonnegative
    let neg := plain.filter fun f => !f.isNonnegative && f.sign?.isSome
    let other := plain.filter fun f => f.sign?.isNone
    let (outside, inside) := placeSigns nonneg neg (other ++ units)
    let rest := match outside, inside with
      | [], fs => [power (mulWith fuel fs) e]
      | _, [] => []
      | _, fs => [powWith fuel (mulWith fuel fs) e]
    let roots := outside.map fun f => if f.isProduct then power f e else powWith fuel f e
    mulWith fuel (roots ++ rest)

end

/-- How deep products and powers may call each other. Each call goes down into the forms or
splits a number; no form comes near to the limit. -/
def depthLimit : Nat := 100

/-- The product of forms. -/
def mulFactors (fs : List Form) : Form := mulWith depthLimit fs

/-- The product of two forms. -/
def mul (a b : Form) : Form := mulFactors [a, b]

/-- The power of a form. -/
def pow (b e : Form) : Form := powWith depthLimit b e

/-- The quotient of two forms. -/
def div (a b : Form) : Form := mulFactors [a, b.pow (number (-1))]

/-- The power of a product, where the factors that are known not to be negative leave the
power. -/
def separatePower (fs : List Form) (e : Form) : Form := separated depthLimit fs e

end ExactAlgebra.Form
