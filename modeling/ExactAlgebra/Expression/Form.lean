/-!
Forms: what an expression is when it has been evaluated as far as that goes without
multiplying out.

A form is a number, a constant, a symbol, a power, a function of an angle, a product or a
sum. The forms that evaluation makes obey these rules: the factors of a product are no
products and stand in order, after at most one number; the terms of a sum are no sums and
no two of them differ in their coefficient only; they stand in the order of what is left
without the coefficient, after at most one number.

* `Form.order` is a linear order on forms, and two forms are equal when neither comes
  before the other.
* `Form.terms`, `Form.factors`, `Form.coefficient`, `Form.baseExponent` take a form apart.
* `Form.scale` multiplies a form by a number, and every term of a sum.
* `Form.symbols` are the symbols in a form.
-/

namespace ExactAlgebra

/-- The functions of an angle. -/
inductive AngleFunction
  | sine
  | cosine
  | hyperbolicSine
  | hyperbolicCosine

/-- The place of a function in the order of forms. -/
def AngleFunction.rank : AngleFunction → Nat
  | sine => 0
  | cosine => 1
  | hyperbolicSine => 2
  | hyperbolicCosine => 3

/-- An evaluated expression. -/
inductive Form
  | number (r : Rat)
  /-- The quotient of a nonzero number by zero. -/
  | infinite
  /-- A value that does not exist, such as zero over zero. -/
  | undefined
  | imaginaryUnit
  | pi
  | symbol (name : String)
  | power (base exponent : Form)
  | function (f : AngleFunction) (argument : Form)
  | product (factors : List Form)
  | sum (terms : List Form)

namespace Form

/-! ### The order of forms -/

/-- The place of a form among forms of other kinds. -/
def rank : Form → Nat
  | number _ => 0
  | infinite => 1
  | undefined => 2
  | imaginaryUnit => 3
  | pi => 4
  | symbol _ => 5
  | power .. => 6
  | function .. => 7
  | product _ => 8
  | sum _ => 9

mutual

/-- The order of two forms. -/
def order : Form → Form → Ordering
  | number r, number s => if r < s then .lt else if r = s then .eq else .gt
  | symbol a, symbol b => compare a b
  | power b e, power c f => (order b c).then (order e f)
  | function f a, function g b => (compare f.rank g.rank).then (order a b)
  | product fs, product gs => orderAll fs gs
  | sum ts, sum us => orderAll ts us
  | a, b => compare a.rank b.rank

/-- The order of two lists of forms: by the first pair that differs. -/
def orderAll : List Form → List Form → Ordering
  | [], [] => .eq
  | [], _ :: _ => .lt
  | _ :: _, [] => .gt
  | a :: as, b :: bs => (order a b).then (orderAll as bs)

end

instance : BEq Form where
  beq a b := order a b == .eq

/-! ### Symbols -/

mutual

/-- The symbols in a form. -/
def symbols : Form → List String
  | symbol name => [name]
  | power b e => symbols b ++ symbols e
  | function _ a => symbols a
  | product fs => symbolsOfAll fs
  | sum ts => symbolsOfAll ts
  | _ => []

/-- The symbols in a list of forms. -/
def symbolsOfAll : List Form → List String
  | [] => []
  | f :: fs => symbols f ++ symbolsOfAll fs

end

/-- Whether a form has no symbol. -/
def isConstant (f : Form) : Bool := f.symbols.isEmpty

/-- Whether a symbol is in a form. -/
def mentions (name : String) (f : Form) : Bool := f.symbols.contains name

/-! ### Parts -/

/-- The number that a form is. -/
def toNumber? : Form → Option Rat
  | number r => some r
  | _ => none

/-- The terms of a form as a sum. -/
def terms : Form → List Form
  | sum ts => ts
  | f => [f]

/-- The factors of a form as a product. -/
def factors : Form → List Form
  | product fs => fs
  | f => [f]

/-- The product of factors that are in order. -/
def ofFactors : List Form → Form
  | [] => number 1
  | [f] => f
  | fs => product fs

/-- The sum of terms that are in order. -/
def ofTerms : List Form → Form
  | [] => number 0
  | [t] => t
  | ts => sum ts

/-- A form as a number times a form that is no number. -/
def coefficient : Form → Rat × Form
  | number r => (r, number 1)
  | product (number c :: fs) => (c, ofFactors fs)
  | f => (1, f)

/-- A number times a form that is no sum. -/
def scaleTerm (c : Rat) : Form → Form
  | number r => number (c * r)
  | infinite => if c = 0 then undefined else infinite
  | undefined => undefined
  | product (number d :: fs) =>
    if c = 0 then number 0
    else if c * d = 1 then ofFactors fs else product (number (c * d) :: fs)
  | product fs =>
    if c = 0 then number 0 else if c = 1 then product fs else product (number c :: fs)
  | f => if c = 0 then number 0 else if c = 1 then f else product [number c, f]

/-- A number times a form, distributed over the terms of a sum. -/
def scale (c : Rat) : Form → Form
  | sum ts => if c = 0 then number 0 else if c = 1 then sum ts else sum (ts.map (scaleTerm c))
  | f => scaleTerm c f

/-- The negative of a form. -/
def negate (f : Form) : Form := f.scale (-1)

/-- A form as a power. A positive base below one is inverted, so that powers of a number
and of its inverse have the same base. -/
def baseExponent : Form → Form × Form
  | power (number b) e =>
    if 0 < b ∧ b < 1 then (number (1 / b), e.negate) else (number b, e)
  | power b e => (b, e)
  | f => (f, number 1)

/-- Whether a form is a sum. -/
def isSum : Form → Bool
  | sum _ => true
  | _ => false

/-- Whether a form is a product. -/
def isProduct : Form → Bool
  | product _ => true
  | _ => false

/-- The forms of a list in their order. -/
def sorted (fs : List Form) : List Form := fs.mergeSort fun a b => (order a b).isLE

end Form

end ExactAlgebra
