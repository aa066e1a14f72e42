import ExactAlgebra.Expression.Product

/-!
Sines and cosines of forms.

The sine of a rational multiple of π is brought to the first quarter of a turn, and given by
roots where the denominator of the multiple is at most six, or one of 8, 10, 12, 15, 20, 24,
30, 40, 60 and 120. Multiples of a quarter turn leave an angle that is a sum, so that the
sine becomes a cosine or changes its sign; a sign leaves the angle too, and a factor `i`
leads to the hyperbolic functions.

* `Form.sine` is the sine of a form, `Form.cosine` the cosine.
* `Form.signLeaves` picks one of an angle and its negative.
-/

namespace ExactAlgebra.Form

/-! ### The sign of an angle -/

/-- The exponent of a symbol in a term. -/
def exponentOf (name : String) (t : Form) : Rat :=
  t.factors.foldl
    (fun total f =>
      match f with
      | symbol s => if s = name then total + 1 else total
      | power (symbol s) (number e) => if s = name then total + e else total
      | _ => total) 0

/-- Whether a term comes before another by the exponents of symbols: the first symbol with
different exponents decides, and the greater exponent comes first. -/
def leads (names : List String) (s t : Form) : Bool :=
  match names with
  | [] => (order s.coefficient.2 t.coefficient.2).isLT
  | name :: rest =>
    let d := exponentOf name s
    let e := exponentOf name t
    if d = e then leads rest s t else e < d

/-- The names of symbols in alphabetical order, each once. -/
def distinctNames (names : List String) : List String :=
  (names.mergeSort fun a b => a ≤ b).eraseDups

/-- The term of a sum that decides about its sign where as many terms are negative as not:
the leading term with symbols, else the number, else the first term. -/
def leadingTerm (ts : List Form) : Form :=
  let names := distinctNames (symbolsOfAll ts)
  match ts.filter fun t => !t.isConstant with
  | [] => ts.headD (number 0)
  | t :: rest => rest.foldl (fun best t => if leads names t best then t else best) t

/-- Whether the sign of a form is to be taken out: a negative number, a product with a
negative number, or a sum in which more terms than not are negative. -/
def signLeaves : Form → Bool
  | sum ts =>
    let negative := (ts.filter fun t => t.coefficient.1 < 0).length
    let others := ts.length - negative
    if negative = others then (leadingTerm ts).coefficient.1 < 0 else others < negative
  | f => f.coefficient.1 < 0

/-! ### Multiples of π -/

/-- The rational multiple of π that a form is. -/
def turn? : Form → Option Rat
  | pi => some 1
  | product [number c, pi] => some c
  | _ => none

/-- A multiple of π. -/
def ofTurn (r : Rat) : Form := scale r pi

/-- The remainder of a number after the greatest multiple of another one below it. -/
def remainder (r m : Rat) : Rat := r - m * (r / m).floor

/-- Two denominators whose angles have a given angle as a difference: the numerator is the
same for all three. -/
def splitDenominator? : Nat → Option (Nat × Nat)
  | 12 => some (3, 4)
  | 15 => some (6, 10)
  | 20 => some (4, 5)
  | 24 => some (6, 8)
  | 30 => some (5, 6)
  | 40 => some (8, 10)
  | 60 => some (20, 30)
  | 120 => some (40, 60)
  | _ => none

mutual

/-- The cosine of a rational multiple of π. -/
def cosineOfTurnWith : (fuel : Nat) → Rat → Form
  | 0, r => function .cosine (ofTurn r)
  | fuel + 1, r =>
    let r := remainder r 2
    if r = 0 then number 1
    else if 1 < r then (cosineOfTurnWith fuel (r - 1)).negate
    else if half < r then (cosineOfTurnWith fuel (1 - r)).negate
    else if r = half then number 0
    else (rootCosine? fuel r).getD (function .cosine (ofTurn r))

/-- The cosine of a rational multiple of π in the first quarter of a turn, in roots. Known
are those of a third and a fifth of π; the others are those of half an angle and of the
difference of two angles. -/
def rootCosine? : (fuel : Nat) → Rat → Option Form
  | 0, _ => none
  | fuel + 1, r =>
    let p : Rat := r.num
    match splitDenominator? r.den with
    | some (a, b) =>
      let s := p / a
      let t := p / b
      some (addTerms
        [mul (cosineOfTurnWith fuel s) (cosineOfTurnWith fuel t),
          mul (cosineOfTurnWith fuel (half - s)) (cosineOfTurnWith fuel (half - t))])
    | none =>
      if 12 < r.den then none
      else if r.den = 3 then some (number half)
      else if r.den = 5 then
        let root := power (number 5) (number half)
        some (addTerms [number (if p = 1 then 1 / 4 else -1 / 4), scale (1 / 4) root])
      else if r.den % 2 = 0 then
        let double := cosineOfTurnWith fuel (2 * r)
        some (pow (addTerms [number half, scale half double]) (number half))
      else none

end

/-- The number of steps that bring the cosine of a multiple of π to roots. -/
def turnSteps : Nat := 20

/-- The cosine of a rational multiple of π. -/
def cosineOfTurn (r : Rat) : Form := cosineOfTurnWith turnSteps r

/-- The sine of a rational multiple of π. -/
def sineOfTurn (r : Rat) : Form :=
  let r := remainder r 2
  let sign : Rat := if 1 < r then -1 else 1
  let r := if 1 < r then r - 1 else r
  let r := if half < r then 1 - r else r
  scale sign <|
    if r = 0 then number 0
    else if r = half then number 1
    else (rootCosine? turnSteps (half - r)).getD (function .sine (ofTurn r))

/-! ### Angles -/

/-- What multiplies the imaginary unit in a product. -/
def imaginaryPart? : Form → Option Form
  | imaginaryUnit => some (number 1)
  | product fs =>
    if fs.any isImaginaryUnit then some (ofFactors (fs.filter fun f => !f.isImaginaryUnit))
    else none
  | sum ts => do
    let parts ← ts.mapM fun t =>
      match t with
      | imaginaryUnit => some (number 1)
      | product fs =>
        if fs.any isImaginaryUnit then some (ofFactors (fs.filter fun f => !f.isImaginaryUnit))
        else none
      | _ => none
    some (addTerms parts)
  | _ => none

/-- A sum without the multiples of a quarter turn in it, and those multiples. -/
def takeQuarters (ts : List Form) : Form × Rat :=
  let total := (ts.filterMap turn?).foldl (· + ·) 0
  let rest := remainder total half
  (addTerms (ofTurn rest :: ts.filter fun t => t.turn?.isNone), total - rest)

/-- The function that a function of an angle is where the angle is multiplied by `i`, and
whether the value is multiplied by `i`. -/
def acrossUnit : AngleFunction → AngleFunction × Bool
  | .sine => (.hyperbolicSine, true)
  | .cosine => (.hyperbolicCosine, false)
  | .hyperbolicSine => (.sine, true)
  | .hyperbolicCosine => (.cosine, false)

/-- Whether a function is even. -/
def isEven : AngleFunction → Bool
  | .sine => false
  | .cosine => true
  | .hyperbolicSine => false
  | .hyperbolicCosine => true

/-- The value at zero. -/
def valueAtZero (f : AngleFunction) : Form := number (if isEven f then 1 else 0)

/-- Whether a function has a period along the real numbers. -/
def isCircular : AngleFunction → Bool
  | .sine => true
  | .cosine => true
  | _ => false

/-- A function of an angle. -/
def applyWith : (fuel : Nat) → AngleFunction → Form → Form
  | 0, f, a => function f a
  | fuel + 1, f, a =>
    match a with
    | infinite => undefined
    | undefined => undefined
    | a =>
      if a.isZero then valueAtZero f
      else if a.signLeaves then
        let value := applyWith fuel f a.negate
        if isEven f then value else value.negate
      else match a.imaginaryPart? with
        | some b =>
          let (g, multiplied) := acrossUnit f
          let value := applyWith fuel g b
          if multiplied then mul imaginaryUnit value else value
        | none =>
          if isCircular f then
            match a.turn?, f with
            | some r, .sine => sineOfTurn r
            | some r, _ => cosineOfTurn r
            | none, _ =>
              let (rest, quarters) := takeQuarters a.terms
              if a.isSum && quarters != 0 then
                match f with
                | .sine => addTerms [mul (sineOfTurn quarters) (applyWith fuel .cosine rest),
                    mul (cosineOfTurn quarters) (applyWith fuel .sine rest)]
                | _ => addTerms [mul (cosineOfTurn quarters) (applyWith fuel .cosine rest),
                    mul (sineOfTurn quarters) (applyWith fuel .sine rest).negate]
              else function f a
          else function f a

/-- A function of an angle. -/
def apply (f : AngleFunction) (a : Form) : Form := applyWith turnSteps f a

/-- The sine. -/
def sine (a : Form) : Form := a.apply .sine

/-- The cosine. -/
def cosine (a : Form) : Form := a.apply .cosine

end ExactAlgebra.Form
