import ExactAlgebra.Expression.Evaluation
import ExactAlgebra.PartialFractions.Basic
import ExactAlgebra.Polynomial.Taylor
import ExactAlgebra.Roots.Multiplicity
import ExactAlgebra.Roots.Signs
import ExactAlgebra.Text.Quoted

/-!
The values that the calculator takes and gives.

* `Value` has one constructor for every kind of number, text, truth value and sequence,
  and one for each of the algebraic objects of the library.
* `Value.typeName` is what a type is called in a message.
* `Value.shown` is the text of a value in a message, where text is quoted;
  `Value.toText` is its plain text.
-/

namespace ExactAlgebra

/-- A value of the calculator. -/
inductive Value
  | integer (n : Int)
  /-- An integer that came as a machine word; it counts as an integer everywhere. -/
  | machineInteger (n : Int)
  /-- A number given as a quotient of integers. An order is never given so. -/
  | fraction (r : Rat)
  /-- A computed rational number; it counts as an integer if it is one. -/
  | rational (r : Rat)
  /-- The quotient of a nonzero number by zero. -/
  | infinite
  /-- The quotient of zero by zero. -/
  | undefined
  /-- A binary floating-point number, by its text. -/
  | float (shown : String)
  | machineFloat (shown : String)
  | boolean (b : Bool)
  | machineBoolean (b : Bool)
  /-- The value that stands for none. -/
  | absent
  | text (s : String)
  | bytes (s : String)
  | list (items : List Value)
  | tuple (items : List Value)
  | polynomial (p : Polynomial)
  | function (r : RationalFunction)
  | taylor (t : TaylorExpansion)
  | simpleFraction (t : SimpleFraction)
  | decomposition (d : Decomposition)
  | syntheticDivision (d : SyntheticDivision)
  | rootFactorization (f : RootFactorization)
  | signReport (r : SignReport)
  /-- An expression that is no number. -/
  | expression (e : Expression)

namespace Value

/-! ### From computed data -/

/-- A natural number as a value. -/
def natural (n : Nat) : Value := integer n

/-- A number that may be infinite or undefined as a value. -/
def ofExtended : Extended → Value
  | .finite r => rational r
  | .infinite => infinite
  | .undefined => undefined

/-- An expression as a value: a number if it is one when it is evaluated. -/
def ofExpression (e : Expression) : Value :=
  match e.toForm with
  | .number r => rational r
  | .infinite => infinite
  | .undefined => undefined
  | _ => expression e

/-- A text that may be missing as a value. -/
def ofText? : Option String → Value
  | some s => text s
  | none => absent

/-- A pair of coefficient numerator and denominator as a value. -/
def ofPair (pair : Int × Nat) : Value := tuple [integer pair.1, natural pair.2]

/-- The roots of a factorization with their multiplicities as a value. -/
def ofRoots (roots : List (Rat × Nat)) : Value :=
  list (roots.map fun r => tuple [rational r.1, natural r.2])

/-! ### Texts -/

/-- What the type of an evaluated expression is called. -/
def formTypeName : Form → String
  | .number _ => "Rational"
  | .infinite => "ComplexInfinity"
  | .undefined => "NaN"
  | .imaginaryUnit => "ImaginaryUnit"
  | .pi => "Pi"
  | .symbol _ => "Symbol"
  | .power .. => "Pow"
  | .function .sine _ => "sin"
  | .function .cosine _ => "cos"
  | .function .hyperbolicSine _ => "sinh"
  | .function .hyperbolicCosine _ => "cosh"
  | .product _ => "Mul"
  | .sum _ => "Add"

/-- What the type of a value is called. -/
def typeName : Value → String
  | integer _ => "int"
  | machineInteger _ => "int64"
  | fraction _ => "Fraction"
  | rational _ => "Rational"
  | infinite => "ComplexInfinity"
  | undefined => "NaN"
  | float _ => "float"
  | machineFloat _ => "float64"
  | boolean _ | machineBoolean _ => "bool"
  | absent => "NoneType"
  | text _ => "str"
  | bytes _ => "bytes"
  | list _ => "list"
  | tuple _ => "tuple"
  | polynomial _ => "Polynomial"
  | function _ => "RationalFunction"
  | taylor _ => "TaylorExpansion"
  | simpleFraction _ => "PartialFractionTerm"
  | decomposition _ => "PartialFractionResult"
  | syntheticDivision _ => "SyntheticDivision"
  | rootFactorization _ => "RootFactorization"
  | signReport _ => "DescartesReport"
  | expression e => formTypeName e.toForm

/-- A truth value as it is shown. -/
def booleanText (b : Bool) : String := if b then "True" else "False"

/-- Items between brackets, separated by commas. -/
def bracketed (left right : String) (items : List String) : String :=
  left ++ ", ".intercalate items ++ right

/-- Items between round brackets, where a single item is followed by a comma. -/
def tupleText : List String → String
  | [item] => "(" ++ item ++ ",)"
  | items => bracketed "(" ")" items

/-- Fields with their names, after the name of their type. -/
def recordText (name : String) (fields : List (String × String)) : String :=
  name ++ bracketed "(" ")" (fields.map fun f => f.1 ++ "=" ++ f.2)

/-- The text of an evaluated expression; only a symbol and a constant have one. -/
def formText : Form → String
  | .symbol name => name
  | .pi => "pi"
  | .imaginaryUnit => "I"
  | _ => "expression"

/-- A term of a decomposition with its fields. -/
def simpleFractionText (t : SimpleFraction) : String :=
  recordText "PartialFractionTerm" [("root", rationalText t.root), ("power", toString t.power),
    ("coefficient", rationalText t.coefficient)]

mutual

/-- The text of a value in a message. -/
def shown : Value → String
  | integer n => toString n
  | machineInteger n => "np.int64(" ++ toString n ++ ")"
  | fraction r => "Fraction(" ++ toString r.num ++ ", " ++ toString r.den ++ ")"
  | rational r => rationalText r
  | infinite => "zoo"
  | undefined => "nan"
  | float s => s
  | machineFloat s => "np.float64(" ++ s ++ ")"
  | boolean b => booleanText b
  | machineBoolean b => "np." ++ booleanText b ++ "_"
  | absent => "None"
  | text s => Text.quoted s
  | bytes s => "b" ++ Text.quotedBytes s
  | list items => bracketed "[" "]" (shownAll items)
  | tuple items => tupleText (shownAll items)
  | polynomial p => p.toText
  | function r => r.toText
  | taylor t => t.toText
  | simpleFraction t => simpleFractionText t
  | decomposition d =>
    recordText "PartialFractionResult" [("quotient", d.quotient.toText),
      ("terms", tupleText (d.terms.map simpleFractionText))]
  | syntheticDivision d =>
    recordText "SyntheticDivision" [("quotient", d.quotient.toText),
      ("remainder", rationalText d.remainder)]
  | rootFactorization f =>
    recordText "RootFactorization"
      [("roots", bracketed "[" "]" (f.roots.map fun r =>
          tupleText [rationalText r.1, toString r.2])),
        ("cofactor", f.cofactor.toText)]
  | signReport r =>
    recordText "DescartesReport"
      [("positive_changes", toString r.positiveChanges),
        ("negative_changes", toString r.negativeChanges),
        ("possible_positive", tupleText (r.possiblePositive.map toString)),
        ("possible_negative", tupleText (r.possibleNegative.map toString))]
  | expression e => formText e.toForm

/-- The texts of values in a message. -/
def shownAll : List Value → List String
  | [] => []
  | v :: vs => shown v :: shownAll vs

end

/-- The plain text of a value. -/
def toText : Value → String
  | text s => s
  | fraction r => rationalText r
  | machineInteger n => toString n
  | machineFloat s => s
  | machineBoolean b => booleanText b
  | simpleFraction t => t.toText defaultVariable
  | decomposition d => d.toText
  | v => shown v

end Value

end ExactAlgebra
