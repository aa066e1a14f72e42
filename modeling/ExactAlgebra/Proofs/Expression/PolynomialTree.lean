import ExactAlgebra.Expression.ToPolynomial
import ExactAlgebra.Proofs.Polynomial.Denotation

/-!
Expressions that are written with the operations on polynomials.

* **Trees.** A `PolynomialTree` is made of rational numbers and one symbol by sums, products,
  differences, quotients by numbers and natural powers. `toExpression` is the tree as an
  expression, and `toPolynomial` is what the operations on polynomials make of it.
* **Expansion.** The expansion of a tree has no negative powers, and it stands for the same
  element of `ℚ[X]` as the polynomial of the tree (`Laurent.Denotes`, `expands`). Every operation
  on expansions keeps this, division since its divisor is a number.
* **Values.** The value of a tree is that of its polynomial (`eval?_toExpression`).
* **Monomials.** A polynomial as an expression is the tree `Polynomial.toTree`.

Main statement: `Expression.toPolynomial?_faithful`.
-/

open Polynomial

namespace ExactAlgebra

/-! ### Expansions without negative powers -/

namespace Laurent

/-- An expansion without negative powers that stands for an element of `ℚ[X]`. -/
structure Denotes (a : Laurent) (f : ℚ[X]) : Prop where
  shift : a.shift = 0
  coefficients : Coefficients.toPoly a.coefficients = f

variable {a b : Laurent} {f g : ℚ[X]}

/-- A constant expansion denotes a constant. -/
lemma denotes_const (c : ℚ) : (const c).Denotes (C c) := ⟨rfl, by simp [const]⟩

lemma denotes_zero : (const 0).Denotes 0 := by simpa using denotes_const 0

lemma denotes_one : (const 1).Denotes 1 := by simpa using denotes_const 1

/-- The generator denotes the variable. -/
lemma denotes_generator : generator.Denotes X := ⟨rfl, by simp [generator]⟩

/-- Sums, products and multiples of expansions denote those of what they denote. -/
lemma Denotes.add (ha : a.Denotes f) (hb : b.Denotes g) : (a.add b).Denotes (f + g) := by
  refine ⟨by simp [Laurent.add, ha.shift, hb.shift], ?_⟩
  simp [Laurent.add, coefficientsFrom, ha.shift, hb.shift, ha.coefficients, hb.coefficients]

lemma Denotes.mul (ha : a.Denotes f) (hb : b.Denotes g) : (a.mul b).Denotes (f * g) := by
  refine ⟨by simp [Laurent.mul, ha.shift, hb.shift], ?_⟩
  rw [Laurent.mul, Coefficients.toPoly_mul, ha.coefficients, hb.coefficients]

lemma Denotes.scale (ha : a.Denotes f) (c : ℚ) : (a.scale c).Denotes (C c * f) := by
  refine ⟨ha.shift, ?_⟩
  rw [Laurent.scale, Coefficients.toPoly_scale, ha.coefficients]

/-- A product of copies denotes the power. -/
lemma Denotes.copies (ha : a.Denotes f) (n : ℕ) : (a.copies n).Denotes (f ^ n) := by
  induction n with
  | zero => exact denotes_one
  | succ n ih =>
      rw [pow_succ]
      exact ih.mul ha

/-- The zeros in front of a coefficient list are a power of the variable. -/
lemma toPoly_eq_pow_mul_drop (cs : List ℚ) :
    Coefficients.toPoly cs = X ^ (cs.takeWhile (· = 0)).length
      * Coefficients.toPoly (cs.drop (cs.takeWhile (· = 0)).length) := by
  induction cs with
  | nil => simp
  | cons c cs ih =>
      by_cases hc : c = 0
      · rw [List.takeWhile_cons_of_pos (by simpa using hc), List.length_cons, List.drop_succ_cons,
          Coefficients.toPoly_cons, hc, C_0, pow_succ, zero_add, mul_right_comm, ← ih, mul_comm]
      · rw [List.takeWhile_cons_of_neg (by simpa using hc)]
        simp

/-- A power is a product of copies, also where it is written as a single power at once. -/
lemma Denotes.pow (ha : a.Denotes f) (n : ℕ) : (a.pow n).Denotes (f ^ n) := by
  simp only [Laurent.pow]
  split
  · next c hc =>
      have hf : f = X ^ (a.coefficients.takeWhile (· = 0)).length * C c := by
        rw [← ha.coefficients, toPoly_eq_pow_mul_drop a.coefficients, hc,
          Coefficients.toPoly_cons, Coefficients.toPoly_nil, mul_zero, add_zero]
      refine ⟨by simp [ha.shift], ?_⟩
      rw [Coefficients.toPoly_replicate_append, Coefficients.toPoly_cons, Coefficients.toPoly_nil,
        hf, C_pow]
      ring
  · exact ha.copies n

/-- Constants other than zero are inverted. -/
lemma inverse?_const {c : ℚ} (hc : c ≠ 0) : (const c).inverse? = some (const (1 / c)) := by
  simp [inverse?, const, Coefficients.trim, hc]

lemma toInteger?_const (n : ℕ) : (const n).toInteger? = some n := by
  by_cases hn : n = 0 <;>
    simp [toInteger?, toConstant?, toPolynomial?, const, Coefficients.trim, hn]

end Laurent

/-! ### Trees -/

/-- An expression that is written with the operations on polynomials in one symbol. -/
inductive PolynomialTree
  | number (c : ℚ)
  | symbol
  | add (terms : List PolynomialTree)
  | mul (factors : List PolynomialTree)
  | sub (a b : PolynomialTree)
  | div (a : PolynomialTree) (c : ℚ) (nonzero : c ≠ 0)
  | pow (a : PolynomialTree) (n : ℕ)

namespace PolynomialTree

variable (name : String)

mutual

/-- The tree as an expression in the symbol `name`. -/
def toExpression : PolynomialTree → Expression
  | number c => .number c
  | symbol => .symbol name
  | add terms => .add (toExpressions terms)
  | mul factors => .mul (toExpressions factors)
  | sub a b => .sub (toExpression a) (toExpression b)
  | div a c _ => .div (toExpression a) (.number c)
  | pow a n => .pow (toExpression a) (.number n)

/-- The trees as expressions. -/
def toExpressions : List PolynomialTree → List Expression
  | [] => []
  | t :: ts => toExpression t :: toExpressions ts

end

mutual

/-- The polynomial that the operations on polynomials make of the tree. Every number and every
symbol is a polynomial with the label `name`. -/
def toPolynomial : PolynomialTree → Polynomial
  | number c => .const c (some name)
  | symbol => .monomial 1 1 (some name)
  | add terms => (toPolynomials terms).foldr (· + ·) (.zero (some name))
  | mul factors => (toPolynomials factors).foldr (· * ·) (.one (some name))
  | sub a b => toPolynomial a - toPolynomial b
  | div a c _ => (toPolynomial a).scale (1 / c)
  | pow a n => toPolynomial a ^ n

/-- The polynomials of trees. -/
def toPolynomials : List PolynomialTree → List Polynomial
  | [] => []
  | t :: ts => toPolynomial t :: toPolynomials ts

end

/-- The parts of a sum or a product are read one by one. -/
lemma toPolynomials_eq_map (ts : List PolynomialTree) :
    toPolynomials name ts = ts.map (toPolynomial name) := by
  induction ts with
  | nil => rfl
  | cons t ts ih => rw [toPolynomials, ih, List.map_cons]

/-- Induction over trees, with a hypothesis for each term of a sum and each factor of a product. -/
@[elab_as_elim, induction_eliminator]
theorem induction {motive : PolynomialTree → Prop} (number : ∀ c, motive (.number c))
    (symbol : motive .symbol) (add : ∀ terms, (∀ t ∈ terms, motive t) → motive (.add terms))
    (mul : ∀ factors, (∀ t ∈ factors, motive t) → motive (.mul factors))
    (sub : ∀ a b, motive a → motive b → motive (.sub a b))
    (div : ∀ a c nonzero, motive a → motive (.div a c nonzero))
    (pow : ∀ a n, motive a → motive (.pow a n)) (t : PolynomialTree) : motive t :=
  @PolynomialTree.rec motive (fun ts => ∀ t ∈ ts, motive t) number symbol add mul sub div pow
    (List.forall_mem_nil motive) (fun _ _ ht hts => List.forall_mem_cons.mpr ⟨ht, hts⟩) t

/-! ### The polynomial of a tree -/

/-- Where all parts have one label, so has what is made of them. -/
lemma label_foldr {op : Polynomial → Polynomial → Polynomial} {label : Option String}
    (hop : ∀ p q, (op p q).label = p.jointLabel q) {ps : List Polynomial} {q : Polynomial}
    (hps : ∀ p ∈ ps, p.label = label) (hq : q.label = label) : (ps.foldr op q).label = label := by
  induction ps with
  | nil => exact hq
  | cons p ps ih =>
      obtain ⟨hp, hps⟩ := List.forall_mem_cons.mp hps
      rw [List.foldr_cons, hop, Polynomial.jointLabel_of_label_eq (hp.trans (ih hps).symm), ih hps]

/-- All parts of a tree have the label `name`, and the operations hand it on. -/
lemma label_toPolynomial (t : PolynomialTree) : (t.toPolynomial name).label = some name := by
  have hlist : ∀ {ts : List PolynomialTree}, (∀ t ∈ ts, (t.toPolynomial name).label = some name) →
      ∀ p ∈ toPolynomials name ts, p.label = some name := by
    intro ts hts
    rw [toPolynomials_eq_map]
    exact List.forall_mem_map.mpr hts
  induction t with
  | number c => rfl
  | symbol => rfl
  | add terms ih => exact label_foldr Polynomial.label_add (hlist ih) rfl
  | mul factors ih => exact label_foldr Polynomial.label_mul (hlist ih) rfl
  | sub a b iha ihb =>
      rw [toPolynomial, Polynomial.label_sub,
        Polynomial.jointLabel_of_label_eq (iha.trans ihb.symm), ihb]
  | div a c nonzero ih => exact ih
  | pow a n ih => rw [toPolynomial, Polynomial.label_pow, ih]

/-- A number denotes a constant. -/
@[simp] lemma toPoly_number (c : ℚ) : (toPolynomial name (number c)).toPoly = C c :=
  Polynomial.toPoly_const c _

@[simp] lemma toPoly_symbol : (toPolynomial name symbol).toPoly = X := by
  rw [toPolynomial, Polynomial.monomial, Polynomial.toPoly_ofList,
    Coefficients.toPoly_replicate_append]
  simp

/-- A sum of any number of parts denotes their sum, the empty one zero. -/
@[simp] lemma toPoly_add (ts : List PolynomialTree) :
    (toPolynomial name (add ts)).toPoly = (ts.map fun t => (t.toPolynomial name).toPoly).sum := by
  rw [toPolynomial, toPolynomials_eq_map]
  induction ts with
  | nil => rfl
  | cons t ts ih =>
      rw [List.map_cons, List.foldr_cons, Polynomial.toPoly_add, ih, List.map_cons, List.sum_cons]

@[simp] lemma toPoly_mul (ts : List PolynomialTree) :
    (toPolynomial name (mul ts)).toPoly = (ts.map fun t => (t.toPolynomial name).toPoly).prod := by
  rw [toPolynomial, toPolynomials_eq_map]
  induction ts with
  | nil => exact Polynomial.toPoly_one _
  | cons t ts ih =>
      rw [List.map_cons, List.foldr_cons, Polynomial.toPoly_mul, ih, List.map_cons, List.prod_cons]

@[simp] lemma toPoly_sub (a b : PolynomialTree) : (toPolynomial name (sub a b)).toPoly
    = (a.toPolynomial name).toPoly - (b.toPolynomial name).toPoly :=
  Polynomial.toPoly_sub _ _

/-- A division by a number is a multiplication by its reciprocal. -/
@[simp] lemma toPoly_div (a : PolynomialTree) {c : ℚ} (nonzero : c ≠ 0) :
    (toPolynomial name (div a c nonzero)).toPoly = C (1 / c) * (a.toPolynomial name).toPoly :=
  Polynomial.toPoly_scale _ _

@[simp] lemma toPoly_pow (a : PolynomialTree) (n : ℕ) :
    (toPolynomial name (pow a n)).toPoly = (a.toPolynomial name).toPoly ^ n :=
  Polynomial.toPoly_pow _ n

/-! ### Expansion -/

/-- That the expansion of a tree stands for the polynomial of the tree. -/
def Expands (t : PolynomialTree) : Prop :=
  ∃ a, (t.toExpression name).laurent? name = some a ∧ a.Denotes (t.toPolynomial name).toPoly

variable {name} in
/-- A sum expands when its parts do. -/
lemma expands_add {ts : List PolynomialTree} (h : ∀ t ∈ ts, t.Expands name) :
    (add ts).Expands name := by
  rw [Expands, toExpression, Expression.laurent?, toPoly_add]
  induction ts with
  | nil => exact ⟨_, rfl, Laurent.denotes_zero⟩
  | cons t ts ih =>
      obtain ⟨⟨a, ha, haf⟩, hts⟩ := List.forall_mem_cons.mp h
      obtain ⟨b, hb, hbf⟩ := ih hts
      refine ⟨a.add b, ?_, haf.add hbf⟩
      simp [toExpressions, Expression.laurentSum?, ha, hb]

variable {name} in
/-- A product expands when its parts do. -/
lemma expands_mul {ts : List PolynomialTree} (h : ∀ t ∈ ts, t.Expands name) :
    (mul ts).Expands name := by
  rw [Expands, toExpression, Expression.laurent?, toPoly_mul]
  induction ts with
  | nil => exact ⟨_, rfl, Laurent.denotes_one⟩
  | cons t ts ih =>
      obtain ⟨⟨a, ha, haf⟩, hts⟩ := List.forall_mem_cons.mp h
      obtain ⟨b, hb, hbf⟩ := ih hts
      refine ⟨a.mul b, ?_, haf.mul hbf⟩
      simp [toExpressions, Expression.laurentProduct?, ha, hb]

/-- Every tree expands to its polynomial: all exponents are natural, so that nothing is divided by
an expansion that is not constant. -/
lemma expands (t : PolynomialTree) : t.Expands name := by
  induction t with
  | number c => exact ⟨.const c, rfl, toPoly_number name c ▸ Laurent.denotes_const c⟩
  | symbol =>
      refine ⟨.generator, by simp [toExpression, Expression.laurent?], ?_⟩
      simpa using Laurent.denotes_generator
  | add terms ih => exact expands_add ih
  | mul factors ih => exact expands_mul ih
  | sub a b iha ihb =>
      obtain ⟨f, hf, hfa⟩ := iha
      obtain ⟨g, hg, hgb⟩ := ihb
      refine ⟨f.add (g.scale (-1)), by simp [toExpression, Expression.laurent?, hf, hg], ?_⟩
      simpa [sub_eq_add_neg] using hfa.add (hgb.scale (-1))
  -- the only divisor is a number, and its expansion is inverted as a constant
  | div a c nonzero ih =>
      obtain ⟨f, hf, hfa⟩ := ih
      refine ⟨f.mul (.const (1 / c)), ?_, ?_⟩
      · simp [toExpression, Expression.laurent?, hf, Laurent.inverse?_const nonzero]
      · rw [toPoly_div, mul_comm]
        exact hfa.mul (Laurent.denotes_const _)
  | pow a n ih =>
      obtain ⟨f, hf, hfa⟩ := ih
      refine ⟨f.pow n, ?_, ?_⟩
      · simp [toExpression, Expression.laurent?, hf, Laurent.toInteger?_const, Laurent.intPow?]
      · rw [toPoly_pow]
        exact hfa.pow n

/-! ### Reading -/

/-- The expression of a tree is read as the polynomial of the tree. -/
lemma toPolynomial?_toExpression (t : PolynomialTree) :
    (t.toExpression name).toPolynomial? (some name) = .ok (t.toPolynomial name) := by
  obtain ⟨a, ha, hshift, hcoefficients⟩ := t.expands name
  have hread : (t.toExpression name).coefficientsIn? name = some a.coefficients := by
    simp [Expression.coefficientsIn?, ha, Laurent.toPolynomial?, hshift]
  have hp : Polynomial.ofList a.coefficients (some name) = t.toPolynomial name :=
    Polynomial.ext_toPoly ((Polynomial.toPoly_ofList _ _).trans hcoefficients)
      (label_toPolynomial name t).symm
  rw [Expression.toPolynomial?, ← hp]
  simp [bind, Except.bind, hread]

/-! ### Values -/

/-- Natural powers of numbers are always there. -/
lemma rationalPow?_natCast (b : ℚ) (n : ℕ) : rationalPow? b n = some (b ^ n) := by
  simp [rationalPow?]

variable {name} {x : ℚ} {ts : List PolynomialTree}

/-- The value of a sum is that of its polynomial when this holds of the parts. -/
lemma evalSum?_toExpressions
    (h : ∀ t ∈ ts, (t.toExpression name).eval? name x
      = some ((t.toPolynomial name).toPoly.eval x)) :
    Expression.evalSum? name x (toExpressions name ts)
      = some ((toPolynomial name (add ts)).toPoly.eval x) := by
  induction ts with
  | nil => simp [toExpressions, Expression.evalSum?]
  | cons t ts ih =>
      obtain ⟨ht, hts⟩ := List.forall_mem_cons.mp h
      rw [toExpressions, Expression.evalSum?, ht, ih hts]
      simp

lemma evalProduct?_toExpressions
    (h : ∀ t ∈ ts, (t.toExpression name).eval? name x
      = some ((t.toPolynomial name).toPoly.eval x)) :
    Expression.evalProduct? name x (toExpressions name ts)
      = some ((toPolynomial name (mul ts)).toPoly.eval x) := by
  induction ts with
  | nil => simp [toExpressions, Expression.evalProduct?]
  | cons t ts ih =>
      obtain ⟨ht, hts⟩ := List.forall_mem_cons.mp h
      rw [toExpressions, Expression.evalProduct?, ht, ih hts]
      simp

variable (name) in
/-- The value of a tree is the value of the polynomial of the tree. -/
lemma eval?_toExpression (x : ℚ) (t : PolynomialTree) :
    (t.toExpression name).eval? name x = some ((t.toPolynomial name).eval x) := by
  rw [Polynomial.eval_eq]
  induction t with
  | number c => simp [toExpression, Expression.eval?]
  | symbol => simp [toExpression, Expression.eval?]
  | add terms ih => exact evalSum?_toExpressions ih
  | mul factors ih => exact evalProduct?_toExpressions ih
  | sub a b iha ihb => simp [toExpression, Expression.eval?, iha, ihb]
  | div a c nonzero ih => simp [toExpression, Expression.eval?, ih, nonzero, div_eq_inv_mul]
  | pow a n ih => simp [toExpression, Expression.eval?, ih, rationalPow?_natCast]

end PolynomialTree

/-! ### A polynomial as a sum of monomials -/

namespace Polynomial

/-- The tree of the monomials of a polynomial. -/
def toTree (p : Polynomial) : PolynomialTree :=
  .add (p.coefficients.zipIdx.map fun c => .mul [.number c.1, .pow .symbol c.2])

/-- Monomials are written as a number times a power of the symbol. -/
lemma toExpressions_monomials (name : String) (cs : List (ℚ × ℕ)) :
    PolynomialTree.toExpressions name (cs.map fun c => .mul [.number c.1, .pow .symbol c.2])
      = cs.map fun c => .monomial name c.1 c.2 := by
  induction cs with
  | nil => rfl
  | cons c cs ih => exact congrArg (Expression.monomial name c.1 c.2 :: ·) ih

/-- The tree of a polynomial is written as the polynomial is. -/
lemma toExpression_toTree (p : Polynomial) (name : String) :
    p.toTree.toExpression name = p.toExpression name := by
  rw [toTree, PolynomialTree.toExpression, toExpressions_monomials, toExpression]

/-- The tree of a polynomial has this polynomial, under the name of its symbol. -/
lemma toPolynomial_toTree (p : Polynomial) (name : String) :
    p.toTree.toPolynomial name = p.withLabel (some name) := by
  refine ext_toPoly ?_ (PolynomialTree.label_toPolynomial name _)
  have hmonomial : ∀ c : ℚ × ℕ, (PolynomialTree.toPolynomial name
      (.mul [.number c.1, .pow .symbol c.2])).toPoly = C c.1 * X ^ c.2 := fun c => by simp
  rw [toTree, PolynomialTree.toPoly_add, List.map_map]
  simp only [Function.comp_def, hmonomial]
  rw [Coefficients.sum_zipIdx, pow_zero, one_mul, toPoly_ofList_coefficients, toPoly_withLabel]

end Polynomial

/-- **Expressions are read faithfully.** An expression that is made of rational numbers and a symbol
by sums, products, differences, quotients by nonzero numbers and natural powers is read as the
polynomial that the operations on polynomials make of it, under the name of the symbol. So a
polynomial that is written as an expression is read back, and its value as an expression is its
value as a polynomial. -/
theorem Expression.toPolynomial?_faithful (name : String) :
    (∀ t : PolynomialTree,
      (t.toExpression name).toPolynomial? (some name) = .ok (t.toPolynomial name)
        ∧ (t.toPolynomial name).label = some name)
    ∧ ∀ p : Polynomial,
      (p.toExpression name).toPolynomial? (some name) = .ok (p.withLabel (some name))
        ∧ (p.withLabel (some name) == p) = true
        ∧ ∀ x, (p.toExpression name).eval? name x = some (p.eval x) := by
  refine ⟨fun t => ⟨t.toPolynomial?_toExpression name, t.label_toPolynomial name⟩,
    fun p => ⟨?_, Polynomial.beq_iff.mpr rfl, fun x => ?_⟩⟩
  · rw [← p.toExpression_toTree, PolynomialTree.toPolynomial?_toExpression, p.toPolynomial_toTree]
  · rw [← p.toExpression_toTree, PolynomialTree.eval?_toExpression, p.toPolynomial_toTree]
    rfl

end ExactAlgebra
