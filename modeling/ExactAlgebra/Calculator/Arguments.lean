import ExactAlgebra.Value.Coercion

/-!
The arguments of an operation: values in order, and values by name. An argument that may be
missing has a place in the order and a name.
-/

namespace ExactAlgebra.Calculator

/-- The arguments of an operation. -/
structure Arguments where
  positional : List Value
  named : List (String × Value)

/-- An operation on its arguments. -/
abbrev Operation := Arguments → Except Error Value

namespace Arguments

/-- The argument at a place. -/
def at? (a : Arguments) (i : Nat) : Except Error Value :=
  match a.positional[i]? with
  | some v => .ok v
  | none => .error .unsupportedOperands

/-- The argument at a place or under a name, the given one if it is missing. -/
def optional (a : Arguments) (i : Nat) (name : String) (default : Value) : Value :=
  (a.positional[i]? <|> a.named.lookup name).getD default

/-- The number at a place. -/
def rational? (a : Arguments) (i : Nat) : Except Error Rat := do (← a.at? i).toRational?

/-- The integer at a place. -/
def integer? (a : Arguments) (i : Nat) : Except Error Int := do (← a.at? i).toInteger?

/-- The polynomial at a place. -/
def polynomial? (a : Arguments) (i : Nat) : Except Error Polynomial := do
  (← a.at? i).toPolynomial?

/-- The rational function at a place. -/
def function? (a : Arguments) (i : Nat) : Except Error RationalFunction := do
  (← a.at? i).toFunction?

/-- The Taylor expansion at a place. -/
def taylor? (a : Arguments) (i : Nat) : Except Error TaylorExpansion := do
  (← a.at? i).toTaylor?

/-- The term of a decomposition at a place. -/
def simpleFraction? (a : Arguments) (i : Nat) : Except Error SimpleFraction := do
  (← a.at? i).toSimpleFraction?

/-- The decomposition at a place. -/
def decomposition? (a : Arguments) (i : Nat) : Except Error Decomposition := do
  (← a.at? i).toDecomposition?

/-- The label at a place or under its name. -/
def label? (a : Arguments) (i : Nat) : Except Error (Option String) :=
  (a.optional i "label" .absent).toLabel?

/-- A search within the limit that stands at a place or under a name, or else within the
default limit. The limit is that of the searches that are picked out; one that is no number
is refused when such a search takes a step, which is when it would pass the limit `-1`. -/
def withinLimit {α : Type} (a : Arguments) (i : Nat) (name : String) (default : Int)
    (own : Search → Bool) (search : Int → Except Error α) : Except Error α :=
  match a.optional i name .absent with
  | .absent => search default
  | v =>
    match search (v.limitNumber?.getD (-1)) with
    | .error (.limitExceeded s shown) =>
      if own s = false then .error (.limitExceeded s shown)
      else if v.limitNumber?.isSome then .error (.limitExceeded s v.toText)
      else .error .unsupportedOperands
    | outcome => outcome

/-- The order at a place, the given one if it is missing. -/
def order? (a : Arguments) (i : Nat) (role : OrderRole) (default : Int) : Except Error Nat :=
  (a.optional i "n" (.integer default)).toOrder? role

end Arguments

end ExactAlgebra.Calculator
