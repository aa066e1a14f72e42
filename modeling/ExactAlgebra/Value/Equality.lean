import ExactAlgebra.Value.Coercion

/-!
Equality of values, hash keys, and the number of distinct values.

* `same` is equality. Numbers are compared by value whatever their type, polynomials with
  polynomials by coefficients, and a rational function with everything that can be read
  as one; a polynomial is never equal to a number, and a tuple with named fields is equal to
  the tuple of its fields.
* `hashKey?` is what the hash of a value is computed from; two values have the same hash
  when their keys are the same. Lists have none.
* `distinct?` counts the values that a set keeps apart: a value is a duplicate of an
  earlier one if it has the same hash and is equal to it.
-/

namespace ExactAlgebra

namespace Value

/-! ### Equality -/

/-- The number that takes part in a comparison of numbers. -/
def comparable? : Value → Option Rat
  | integer n => some n
  | machineInteger n => some n
  | fraction r => some r
  | rational r => some r
  | boolean b => some (if b then 1 else 0)
  | machineBoolean b => some (if b then 1 else 0)
  | _ => none

/-- Whether a rational function is equal to a value, read as a rational function. -/
def sameFunction (r : RationalFunction) (v : Value) : Bool :=
  match v.asFunction? with
  | .ok s => r == s
  | .error _ => false

mutual

/-- A value in which the tuples with named fields are plain tuples. -/
def plain : Value → Value
  | syntheticDivision d => tuple [polynomial d.quotient, rational d.remainder]
  | rootFactorization f => tuple [ofRoots f.roots, polynomial f.cofactor]
  | list items => list (plainAll items)
  | tuple items => tuple (plainAll items)
  | v => v

/-- The values of a sequence in which the tuples with named fields are plain tuples. -/
def plainAll : List Value → List Value
  | [] => []
  | v :: vs => plain v :: plainAll vs

end

mutual

/-- Equality of values without named fields. -/
def samePlain : Value → Value → Bool
  | polynomial p, polynomial q => p == q
  | function r, v => sameFunction r v
  | v, function r => sameFunction r v
  | taylor s, taylor t => s == t
  | simpleFraction s, simpleFraction t => s = t
  | decomposition d, decomposition e => d == e
  | signReport r, signReport s => r = s
  | list vs, list ws => sameAll vs ws
  | tuple vs, tuple ws => sameAll vs ws
  | text s, text t => s = t
  | bytes s, bytes t => s = t
  | absent, absent => true
  | infinite, infinite => true
  | undefined, undefined => true
  | expression e, expression f => e.toForm == f.toForm
  | float s, float t => s = t && s != "nan"
  | machineFloat s, machineFloat t => s = t && s != "nan"
  | v, w =>
    match v.comparable?, w.comparable? with
    | some a, some b => a = b
    | _, _ => false

/-- Equality of sequences, item by item. -/
def sameAll : List Value → List Value → Bool
  | [], [] => true
  | v :: vs, w :: ws => samePlain v w && sameAll vs ws
  | _, _ => false

end

/-- Equality of values. The names of the fields of a tuple do not count. -/
def same (v w : Value) : Bool := samePlain v.plain w.plain

end Value

/-! ### Hashes -/

/-- What a hash is computed from. -/
inductive HashKey
  /-- A number. -/
  | number (r : Rat)
  /-- A computed fraction, whose hash is not that of the number. -/
  | computedFraction (r : Rat)
  | text (s : String)
  | bytes (s : String)
  | float (shown : String)
  | absent
  | infinite
  | undefined
  | sequence (keys : List HashKey)

namespace HashKey

mutual

/-- Whether two keys are the same. -/
def same : HashKey → HashKey → Bool
  | number r, number s => r = s
  | computedFraction r, computedFraction s => r = s
  | text s, text t => s = t
  | bytes s, bytes t => s = t
  | float s, float t => s = t
  | absent, absent => true
  | infinite, infinite => true
  | undefined, undefined => true
  | sequence ks, sequence ls => sameAll ks ls
  | _, _ => false

/-- Whether two lists of keys are the same. -/
def sameAll : List HashKey → List HashKey → Bool
  | [], [] => true
  | k :: ks, l :: ls => same k l && sameAll ks ls
  | _, _ => false

end

/-- The key of a computed rational number: an integer has the hash of the integer. -/
def ofRational (r : Rat) : HashKey := if r.den = 1 then number r else computedFraction r

/-- The key of a natural number. -/
def ofNat (n : Nat) : HashKey := number n

/-- The key of a polynomial is that of its coefficients. -/
def ofPolynomial (p : Polynomial) : HashKey := sequence (p.coefficients.map ofRational)

/-- The key of a rational function is that of its canonical form, and that of the numerator
alone where the denominator is one. -/
def ofFunction (r : RationalFunction) : HashKey :=
  let s := r.simplify
  if s.denominator == .one none then ofPolynomial s.numerator
  else sequence [ofPolynomial s.numerator, ofPolynomial s.denominator]

/-- The key of a Taylor expansion is that of its center and its coefficients. -/
def ofTaylor (t : TaylorExpansion) : HashKey :=
  sequence [ofRational t.center, sequence (t.coefficients.map ofRational)]

/-- The key of a term of a decomposition is that of its fields. -/
def ofSimpleFraction (t : SimpleFraction) : HashKey :=
  sequence [ofRational t.root, number t.power, ofRational t.coefficient]

end HashKey

namespace Value

mutual

/-- The hash key of a value; a sequence that can change has none. -/
def hashKey? : Value → Option HashKey
  | integer n => some (.number n)
  | machineInteger n => some (.number n)
  | fraction r => some (.number r)
  | rational r => some (.ofRational r)
  | boolean b => some (.number (if b then 1 else 0))
  | machineBoolean b => some (.number (if b then 1 else 0))
  | infinite => some .infinite
  | undefined => some .undefined
  | float s => some (.float s)
  | machineFloat s => some (.float s)
  | absent => some .absent
  | text s => some (.text s)
  | bytes s => some (.bytes s)
  | list _ => none
  | tuple items => do some (.sequence (← hashKeys? items))
  | polynomial p => some (.ofPolynomial p)
  | function r => some (.ofFunction r)
  | taylor t => some (.ofTaylor t)
  | simpleFraction t => some (.ofSimpleFraction t)
  | decomposition d =>
    some (.sequence [.ofPolynomial d.quotient, .sequence (d.terms.map .ofSimpleFraction)])
  | syntheticDivision d => some (.sequence [.ofPolynomial d.quotient, .ofRational d.remainder])
  | rootFactorization _ => none
  | signReport r =>
    some (.sequence [.ofNat r.positiveChanges, .ofNat r.negativeChanges,
      .sequence (r.possiblePositive.map .ofNat), .sequence (r.possibleNegative.map .ofNat)])
  | expression _ => none

/-- The hash keys of the items of a sequence. -/
def hashKeys? : List Value → Option (List HashKey)
  | [] => some []
  | v :: vs => do some ((← hashKey? v) :: (← hashKeys? vs))

end

/-- Whether a keyed value is a duplicate of another one. -/
def isDuplicate (a b : HashKey × Value) : Bool := a.1.same b.1 && a.2.same b.2

/-- The number of different values in a list. -/
def distinct? (vs : List Value) : Except Error Nat :=
  match vs.mapM fun v => v.hashKey?.map fun k => (k, v) with
  | none => .error .unsupportedOperands
  | some keyed =>
    .ok (keyed.foldl (fun kept v => if kept.any (isDuplicate · v) then kept else v :: kept) []).length

/-- Whether two values have the same hash. -/
def sameHash? (v w : Value) : Except Error Bool :=
  match v.hashKey?, w.hashKey? with
  | some k, some l => .ok (k.same l)
  | _, _ => .error .unsupportedOperands

end Value

end ExactAlgebra
