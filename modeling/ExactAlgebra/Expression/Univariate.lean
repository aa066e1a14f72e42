import ExactAlgebra.Expression.Expansion

/-!
Expanded forms as polynomials in one symbol.

The coefficients of a form in a symbol are forms without that symbol. They have to be
rational numbers in the end. Where they are fractions made of other symbols and of
transcendental constants, they are brought to lowest terms first, as all of these are
independent of each other; where roots of numbers are in them, only leading coefficients
that are zero are left out.

* `Form.formCoefficients?` are the coefficients of an expanded form.
* `Form.rationals?` are coefficients as rational numbers.
* `Form.coefficientsIn?` are the rational coefficients of a form in a symbol.
-/

namespace ExactAlgebra.Form

/-! ### Coefficients -/

/-- The exponent of the symbol in a factor and what is left of the factor. There is none if
the symbol is in the factor in any other way than as a natural power. -/
def splitFactorIn? (name : String) (f : Form) : Option (Nat × Form) :=
  match f with
  | symbol s => if s = name then some (1, number 1) else some (0, f)
  | power (symbol s) (number e) =>
    if s ≠ name then some (0, f)
    else if e.den = 1 ∧ 0 < e then some (e.num.toNat, number 1)
    else none
  | f => if f.mentions name then none else some (0, f)

/-- The exponent of the symbol in a term and its coefficient. -/
def splitTermIn? (name : String) (t : Form) : Option (Nat × Form) := do
  let parts ← t.factors.mapM (splitFactorIn? name)
  some (parts.foldl (fun n p => n + p.1) 0, mulFactors (parts.map (·.2)))

/-- The coefficients of an expanded form in a symbol, from the constant one up. -/
def formCoefficients? (name : String) (f : Form) : Option (List Form) := do
  let parts ← f.terms.mapM (splitTermIn? name)
  let degree := parts.foldl (fun d p => max d p.1) 0
  some ((List.range (degree + 1)).map fun n =>
    addTerms ((parts.filter fun p => p.1 == n).map (·.2)))

/-! ### Rational coefficients -/

/-- The base of which a factor is an integer power with a positive exponent. -/
def generator (f : Form) : Form :=
  let (b, e) := f.baseExponent
  match e with
  | number r => if r.den = 1 ∧ 0 < r then b else pow b (number (1 / r.den))
  | e =>
    let (c, rest) := e.coefficient
    pow b (rest.scale (1 / c.den))

/-- The different factors, other than numbers and the imaginary unit, that an expanded form
is made of. -/
def generators (f : Form) : List Form :=
  let factors := (f.terms.flatMap factors).filter fun g => !g.isNumber && !g.isImaginaryUnit
  (factors.map generator).eraseDups

/-- Whether no two forms have a symbol in common. -/
def haveDisjointSymbols : List Form → Bool
  | [] => true
  | f :: fs =>
    (fs.all fun g => f.symbols.all fun name => !g.symbols.contains name) && haveDisjointSymbols fs

/-- The rational number by which one expanded form is a multiple of another one. -/
def ratio? (n d : Form) : Option Rat :=
  if n == number 0 then some 0
  else
    match n.terms.head?, d.terms.head? with
    | some s, some t =>
      let c := s.coefficient.1 / t.coefficient.1
      if d.scale c == n then some c else none
    | _, _ => none

/-- Coefficients without those at the end that are known to be zero. -/
def withoutLeadingZeros (fs : List Form) : List Form :=
  (fs.reverse.dropWhile isZero).reverse

/-- The rational numbers that coefficients are. -/
def rationals? (fs : List Form) : Option (List Rat) :=
  match fs.mapM toNumber? with
  | some rs => some rs
  | none =>
    let fractions := fs.map fun f =>
      let (n, d) := f.asFraction
      (n.expand, d.expand)
    let generators := (fractions.flatMap fun p => p.1.generators ++ p.2.generators).eraseDups
    if generators.isEmpty || (generators.any fun g => g.isConstant && g.isAlgebraic) ||
        !haveDisjointSymbols generators then
      (withoutLeadingZeros fs).mapM toNumber?
    else fractions.mapM fun p => ratio? p.1 p.2

/-- The rational coefficients of a form in a symbol. -/
def coefficientsIn? (name : String) (f : Form) : Option (List Rat) := do
  rationals? (← formCoefficients? name f.expand)

end ExactAlgebra.Form
