import Mathlib.Data.Rat.Lemmas
import ExactAlgebra.Calculator.Functions
import ExactAlgebra.Proofs.Polynomial.TaylorConversion

/-!
The pair format: a polynomial as the list of its coefficients, each a pair of integers.

Reading accepts more lists than writing produces: fractions that are not in lowest terms,
negative denominators, zeros at the end.

* **Lists of pairs.** A list denotes the quotients of its pairs, and `pairCoefficient L i` is the
  coefficient of `x ^ i`, zero past the end. A list is refused when it is empty or has the
  denominator zero (`ofPairs?_eq_ok`, `failure_ofPairs?`).
* **Canonical lists.** A fraction in lowest terms is determined by its value, and a list without
  zeros at the end by its coefficients. So the canonical lists (`IsCanonicalPairs`) are those that
  are written (`isCanonicalPairs_integerPairs`), and a canonical list is written again as it was
  read (`integerPairs_ofList`).
* **Values.** A value is read pair by pair, and only the pairs that it holds matter
  (`polynomialOfPairs?_eq`, `functionOfPairs?_eq`).

Main statement: `Value.pair_format`.
-/

namespace ExactAlgebra

namespace Polynomial

/-! ### Lists of pairs -/

/-- The coefficients as pairs of integers, in the form in which they are read. -/
def integerPairs (p : Polynomial) : List (ℤ × ℤ) := p.toPairs.map fun pair => (pair.1, ↑pair.2)

/-- The numbers that a list of pairs denotes. -/
def pairQuotients (L : List (ℤ × ℤ)) : List ℚ := L.map fun pair => pair.1 / pair.2

/-- The coefficient of `x ^ i` that a list of pairs denotes. -/
def pairCoefficient (L : List (ℤ × ℤ)) (i : ℕ) : ℚ := (pairQuotients L).getD i 0

/-- The lists of pairs in which polynomials are written. -/
structure IsCanonicalPairs (L : List (ℤ × ℤ)) : Prop where
  ne_nil : L ≠ []
  denominator_pos : ∀ pair ∈ L, 0 < pair.2
  lowest_terms : ∀ pair ∈ L, Int.gcd pair.1 pair.2 = 1
  /-- There is no zero at the end, except for the zero polynomial. -/
  last : L = [(0, 1)] ∨ ∀ pair ∈ L.getLast?, pair.1 ≠ 0

instance : DecidablePred IsCanonicalPairs := fun L =>
  decidable_of_iff
    (L ≠ [] ∧ (∀ pair ∈ L, 0 < pair.2) ∧ (∀ pair ∈ L, Int.gcd pair.1 pair.2 = 1)
      ∧ (L = [(0, 1)] ∨ ∀ pair ∈ L.getLast?, pair.1 ≠ 0))
    ⟨fun ⟨hne, hpos, hlowest, hlast⟩ => ⟨hne, hpos, hlowest, hlast⟩,
      fun h => ⟨h.ne_nil, h.denominator_pos, h.lowest_terms, h.last⟩⟩

variable {L M : List (ℤ × ℤ)} {p q : Polynomial}

lemma ofPairs?_eq_ok (hne : L ≠ []) (hden : ∀ pair ∈ L, pair.2 ≠ 0) (label : Option String) :
    ofPairs? L label = .ok (ofList (pairQuotients L) label) := by
  have hquotients : L.mapM ofPair? = .ok (pairQuotients L) :=
    mapM_eq_ok_of_forall fun pair hpair => by rw [ofPair?, if_neg (hden pair hpair)]
  rw [ofPairs?, bind_eq_ok_iff]
  refine ⟨_, hquotients, ?_⟩
  rw [ofCoefficients?, if_neg]
  rwa [List.isEmpty_iff, pairQuotients, List.map_eq_nil_iff]

lemma failure_ofPair? (pair : ℤ × ℤ) :
    failure (ofPair? pair) = if pair.2 = 0 then some .invalidArgument else none := by
  rw [ofPair?]
  split <;> rfl

lemma failure_ofPairs? (L : List (ℤ × ℤ)) (label : Option String) :
    failure (ofPairs? L label) = some .invalidArgument ↔ L = [] ∨ ∃ pair ∈ L, pair.2 = 0 := by
  constructor
  · intro h
    by_contra hvalid
    push Not at hvalid
    exact failure_ne_some (ofPairs?_eq_ok hvalid.1 hvalid.2 label) _ h
  · rintro (rfl | ⟨pair, hpair, hzero⟩)
    · rfl
    · refine failure_bind_of_failure ((failure_mapM_iff fun pair _ => ?_).mpr ⟨pair, hpair, ?_⟩)
      · rw [failure_ofPair?]
        exact (ite_eq_or_eq _ _ _).symm
      · rw [failure_ofPair?, if_pos hzero]

/-! ### Coefficients -/

/-- The coefficients of the polynomial that is read are those that the list denotes. -/
lemma coefficient_ofList_pairQuotients (L : List (ℤ × ℤ)) (label : Option String) :
    (ofList (pairQuotients L) label).coefficient = pairCoefficient L := by
  funext i
  rw [coefficient_eq, toPoly_ofList, Coefficients.coeff_toPoly, pairCoefficient]

lemma coefficient_of_ofPairs? {label : Option String} (h : ofPairs? L label = .ok p) :
    p.coefficient = pairCoefficient L := by
  have hvalid : ¬(L = [] ∨ ∃ pair ∈ L, pair.2 = 0) := fun hrefused =>
    failure_ne_some h _ ((failure_ofPairs? L label).mpr hrefused)
  push Not at hvalid
  rw [ofPairs?_eq_ok hvalid.1 hvalid.2] at h
  cases h
  exact coefficient_ofList_pairQuotients L label

lemma pairQuotients_integerPairs (p : Polynomial) :
    pairQuotients p.integerPairs = p.coefficients := by
  rw [pairQuotients, integerPairs, toPairs, List.map_map, List.map_map]
  exact List.map_id'' (fun c => Rat.num_div_den c) _

/-- What is written denotes the coefficients of the polynomial. -/
lemma pairCoefficient_integerPairs (p : Polynomial) :
    pairCoefficient p.integerPairs = p.coefficient := by
  rw [← coefficient_ofList_pairQuotients _ p.label, pairQuotients_integerPairs,
    ofList_coefficients]

lemma beq_iff_coefficient : (p == q) = true ↔ p.coefficient = q.coefficient := by
  rw [beq_iff_toPoly, Polynomial.ext_iff, funext_iff]
  simp only [coefficient_eq]

/-- Equal polynomials are written alike. -/
lemma beq_iff_integerPairs : (p == q) = true ↔ p.integerPairs = q.integerPairs := by
  constructor
  · intro h
    rw [integerPairs, toPairs, coefficients, beq_iff.mp h]
    rfl
  · intro h
    rw [beq_iff_coefficient, ← pairCoefficient_integerPairs, h, pairCoefficient_integerPairs]

/-! ### Canonical lists -/

lemma IsCanonicalPairs.denominator_ne_zero (h : IsCanonicalPairs L) :
    ∀ pair ∈ L, pair.2 ≠ 0 := fun pair hpair => (h.denominator_pos pair hpair).ne'

lemma isCanonicalPairs_integerPairs (p : Polynomial) : IsCanonicalPairs p.integerPairs := by
  -- the pairs are numerators and denominators in lowest terms
  have hmem : ∀ pair ∈ p.integerPairs, ∃ c : ℚ, pair = (c.num, ↑c.den) := by
    intro pair hpair
    rw [integerPairs, toPairs, List.map_map] at hpair
    obtain ⟨c, -, rfl⟩ := List.mem_map.mp hpair
    exact ⟨c, rfl⟩
  refine ⟨?_, fun pair hpair => ?_, fun pair hpair => ?_, ?_⟩
  · rw [integerPairs, toPairs, Ne, List.map_eq_nil_iff, List.map_eq_nil_iff]
    exact p.coefficients_ne_nil
  · obtain ⟨c, rfl⟩ := hmem pair hpair
    exact Int.natCast_pos.mpr c.pos
  · obtain ⟨c, rfl⟩ := hmem pair hpair
    exact c.reduced
  · cases hp : p.isZero with
    | true =>
        left
        rw [integerPairs, toPairs, coefficients, isZero_iff.mp hp]
        rfl
    | false =>
        -- trimmed coefficients end in no zero
        right
        intro pair hpair hnum
        rw [integerPairs, toPairs, List.map_map, List.getLast?_map] at hpair
        obtain ⟨c, hc, rfl⟩ := Option.map_eq_some_iff.mp hpair
        rw [coefficients, if_neg (by simpa [isZero] using hp), Rat.num_eq_zero.mp hnum] at hc
        exact p.trimmed hc

/-- The polynomial of a canonical list has just the coefficients that are listed. -/
lemma IsCanonicalPairs.coefficients_ofList (h : IsCanonicalPairs L) (label : Option String) :
    (ofList (pairQuotients L) label).coefficients = pairQuotients L := by
  have hne : pairQuotients L ≠ [] := by rw [pairQuotients, Ne, List.map_eq_nil_iff]; exact h.ne_nil
  rw [coefficients_ofList_eq_self_iff hne]
  rcases h.last with rfl | hlast
  · exact .inr rfl
  · left
    rw [pairQuotients, List.getLast?_map]
    intro hzero
    obtain ⟨pair, hpair, hquotient⟩ := Option.map_eq_some_iff.mp hzero
    rcases div_eq_zero_iff.mp hquotient with hnum | hden
    · exact hlast pair hpair (by exact_mod_cast hnum)
    · exact h.denominator_ne_zero pair (List.mem_of_getLast? hpair) (by exact_mod_cast hden)

/-- A canonical list is written again as it was read. -/
lemma IsCanonicalPairs.integerPairs_ofList (h : IsCanonicalPairs L) (label : Option String) :
    (ofList (pairQuotients L) label).integerPairs = L := by
  rw [integerPairs, toPairs, h.coefficients_ofList, pairQuotients, List.map_map, List.map_map]
  conv_rhs => rw [← List.map_id L]
  refine List.map_congr_left fun pair hpair => Prod.ext ?_ ?_
  · exact Rat.num_div_eq_of_coprime (h.denominator_pos pair hpair) (h.lowest_terms pair hpair)
  · exact Rat.den_div_eq_of_coprime (h.denominator_pos pair hpair) (h.lowest_terms pair hpair)

/-- A canonical list is determined by the coefficients it denotes. -/
lemma IsCanonicalPairs.eq_integerPairs (h : IsCanonicalPairs L)
    (hL : pairCoefficient L = p.coefficient) : L = p.integerPairs := by
  rw [← h.integerPairs_ofList p.label, ← beq_iff_integerPairs, beq_iff_coefficient,
    coefficient_ofList_pairQuotients, hL]

/-- What is written is read back under any label. -/
lemma ofPairs?_integerPairs (p : Polynomial) (label : Option String) :
    ofPairs? p.integerPairs label = .ok (p.withLabel label) := by
  have hcanonical := isCanonicalPairs_integerPairs p
  rw [ofPairs?_eq_ok hcanonical.ne_nil hcanonical.denominator_ne_zero, pairQuotients_integerPairs]
  exact congrArg (fun q => Except.ok (Polynomial.withLabel q label)) (ofList_coefficients p)

end Polynomial

/-- Numerator and denominator are read back as they are stored. -/
lemma RationalFunction.ofPairs?_integerPairs (r : RationalFunction) (label : Option String) :
    ofPairs? r.numerator.integerPairs r.denominator.integerPairs label
      = .ok ⟨r.numerator.withLabel label, r.denominator.withLabel label,
          r.denominator_ne_zero⟩ := by
  rw [ofPairs?, Polynomial.ofPairs?_integerPairs, Polynomial.ofPairs?_integerPairs]
  exact dif_pos r.denominator_ne_zero

/-! ### Values -/

namespace Value

open ExactAlgebra.Polynomial

/-- The pair of integers that a value is. -/
def toIntegerPair? (v : Value) : Except Error (ℤ × ℤ) := do
  match ← v.toItems? with
  | [a, b] => do .ok (← a.toInteger?, ← b.toInteger?)
  | _ => .error .notAPair

/-- The list of pairs of integers that a value is. -/
def toIntegerPairs? (v : Value) : Except Error (List (ℤ × ℤ)) := do
  (← v.toItems?).mapM toIntegerPair?

variable {v w : Value} {L M : List (ℤ × ℤ)}

lemma toPairQuotient?_eq {pair : ℤ × ℤ} (h : v.toIntegerPair? = .ok pair) :
    v.toPairQuotient? = ofPair? pair := by
  obtain ⟨items, hitems, h⟩ := bind_eq_ok_iff.mp h
  rw [toPairQuotient?, hitems]
  split at h
  · next a b =>
      obtain ⟨m, hm, h⟩ := bind_eq_ok_iff.mp h
      obtain ⟨n, hn, h⟩ := bind_eq_ok_iff.mp h
      cases h
      change (do ofPair? (← a.toInteger?, ← b.toInteger?)) = _
      rw [hm, hn]
      rfl
  · cases h

/-- Of a value that is a list of pairs, only the pairs matter. -/
lemma polynomialOfPairs?_eq (h : v.toIntegerPairs? = .ok L) (label : Option String) :
    v.polynomialOfPairs? label = ofPairs? L label := by
  obtain ⟨items, hitems, hpairs⟩ := bind_eq_ok_iff.mp h
  have hquotients : items.mapM toPairQuotient? = L.mapM ofPair? :=
    mapM_congr_of_forall₂ ((mapM_eq_ok_iff.mp hpairs).imp fun _ _ => toPairQuotient?_eq)
  rw [polynomialOfPairs?, hitems]
  change (do ofCoefficients? (← items.mapM toPairQuotient?) label) = _
  rw [hquotients]
  rfl

lemma functionOfPairs?_eq {a : Calculator.Arguments} {label : Option String} (h₀ : a.at? 0 = .ok v)
    (h₁ : a.at? 1 = .ok w) (hlabel : a.label? 2 = .ok label) (hv : v.toIntegerPairs? = .ok L)
    (hw : w.toIntegerPairs? = .ok M) :
    Calculator.functionOfPairs? a = RationalFunction.ofPairs? L M label := by
  rw [RationalFunction.ofPairs?, ← polynomialOfPairs?_eq hv, ← polynomialOfPairs?_eq hw,
    Calculator.functionOfPairs?, h₀, h₁, hlabel]
  rfl

/-- What is written is a list of pairs. -/
lemma toIntegerPairs?_coefficientPairs (p : Polynomial) :
    (coefficientPairs p).toIntegerPairs? = .ok p.integerPairs := by
  change (p.toPairs.map ofPair).mapM toIntegerPair? = .ok p.integerPairs
  rw [mapM_eq_ok_iff, integerPairs, List.forall₂_map_left_iff, List.forall₂_map_right_iff,
    List.forall₂_same]
  intro pair _
  rfl

/-! ### The format -/

/-- The polynomial that a list of pairs denotes, where it is read. -/
lemma polynomialOfPairs?_eq_ok (hv : v.toIntegerPairs? = .ok L) (hne : L ≠ [])
    (hden : ∀ pair ∈ L, pair.2 ≠ 0) (label : Option String) :
    v.polynomialOfPairs? label = .ok (ofList (pairQuotients L) label) := by
  rw [polynomialOfPairs?_eq hv, ofPairs?_eq_ok hne hden]

/-- **The pair format is canonical.** A polynomial is written as a canonical list of pairs that
denotes its coefficients, and reading the list under the label of the polynomial restores it. A
list of pairs that is not empty and has no denominator zero is read, under any label; the
polynomial is written as a canonical list that denotes the same coefficients, and as the only one.
So two lists denote the same coefficients, and equal polynomials, exactly when these canonical
lists agree. Of the other lists each is refused as an invalid argument. A rational function is
written as the lists of its numerator and its denominator, and these are restored as they were
stored, common factors included. -/
theorem pair_format :
    (∀ p : Polynomial, ∃ v, (polynomial p).pairs? = .ok v
      ∧ v.toIntegerPairs? = .ok p.integerPairs
      ∧ IsCanonicalPairs p.integerPairs
      ∧ pairQuotients p.integerPairs = p.coefficients
      ∧ v.polynomialOfPairs? p.label = .ok p)
    ∧ (∀ (v : Value) (L : List (ℤ × ℤ)) (label : Option String), v.toIntegerPairs? = .ok L →
      L ≠ [] → (∀ pair ∈ L, pair.2 ≠ 0) →
      ∃ p, v.polynomialOfPairs? label = .ok p ∧ p.label = label
        ∧ IsCanonicalPairs p.integerPairs
        ∧ pairCoefficient p.integerPairs = pairCoefficient L
        ∧ ∀ M, IsCanonicalPairs M → pairCoefficient M = pairCoefficient L → M = p.integerPairs)
    ∧ (∀ (v w : Value) (L M : List (ℤ × ℤ)) (label label' : Option String) (p q : Polynomial),
      v.toIntegerPairs? = .ok L → w.toIntegerPairs? = .ok M →
      v.polynomialOfPairs? label = .ok p → w.polynomialOfPairs? label' = .ok q →
      (pairCoefficient L = pairCoefficient M ↔ p.integerPairs = q.integerPairs)
        ∧ ((p == q) = true ↔ p.integerPairs = q.integerPairs))
    ∧ (∀ (v : Value) (L : List (ℤ × ℤ)) (label : Option String), v.toIntegerPairs? = .ok L →
      (failure (v.polynomialOfPairs? label) = some .invalidArgument
        ↔ L = [] ∨ ∃ pair ∈ L, pair.2 = 0))
    ∧ ∀ r : RationalFunction, ∃ n d, (function r).pairs? = .ok (tuple [n, d])
      ∧ n.toIntegerPairs? = .ok r.numerator.integerPairs
      ∧ d.toIntegerPairs? = .ok r.denominator.integerPairs
      ∧ ∀ (a : Calculator.Arguments) (label : Option String),
        a.at? 0 = .ok n → a.at? 1 = .ok d → a.label? 2 = .ok label →
        ∃ s, Calculator.functionOfPairs? a = .ok s
          ∧ s.numerator = r.numerator.withLabel label
          ∧ s.denominator = r.denominator.withLabel label := by
  refine ⟨fun p => ?_, fun v L label hv hne hden => ?_,
    fun v w L M label label' p q hv hw hp hq => ?_, fun v L label hv => ?_, fun r => ?_⟩
  · have hwritten := toIntegerPairs?_coefficientPairs p
    refine ⟨coefficientPairs p, rfl, hwritten, isCanonicalPairs_integerPairs p,
      pairQuotients_integerPairs p, ?_⟩
    rw [polynomialOfPairs?_eq hwritten, ofPairs?_integerPairs]
    rfl
  · refine ⟨_, polynomialOfPairs?_eq_ok hv hne hden label, rfl, isCanonicalPairs_integerPairs _,
      ?_, fun M hM hcoefficients => hM.eq_integerPairs ?_⟩
    · rw [pairCoefficient_integerPairs, coefficient_ofList_pairQuotients]
    · rw [coefficient_ofList_pairQuotients, hcoefficients]
  · rw [polynomialOfPairs?_eq hv] at hp
    rw [polynomialOfPairs?_eq hw] at hq
    rw [← coefficient_of_ofPairs? hp, ← coefficient_of_ofPairs? hq, ← beq_iff_coefficient]
    exact ⟨beq_iff_integerPairs, beq_iff_integerPairs⟩
  · rw [polynomialOfPairs?_eq hv, failure_ofPairs?]
  · have hn := toIntegerPairs?_coefficientPairs r.numerator
    have hd := toIntegerPairs?_coefficientPairs r.denominator
    refine ⟨_, _, rfl, hn, hd, fun a label h₀ h₁ hlabel => ?_⟩
    rw [functionOfPairs?_eq h₀ h₁ hlabel hn hd, RationalFunction.ofPairs?_integerPairs]
    exact ⟨_, rfl, rfl, rfl⟩

/-- Two lists for `3x - 1/2`, the first with a negative denominator, a fraction that is not in
lowest terms and a zero at its end, and the pairs of `(x² - 1) / (x - 1)`, which is not reduced. -/
theorem pair_format_unreduced :
    let v := list [tuple [integer 2, integer (-4)], tuple [integer 3, integer 1],
      tuple [integer 0, integer (-5)]]
    let w := list [list [integer (-1), integer 2], list [integer 6, integer 2]]
    let r : RationalFunction := ⟨ofList [-1, 0, 1] none, .linear 1 none, isZero_linear 1 none⟩
    v.toIntegerPairs? = .ok [(2, -4), (3, 1), (0, -5)]
      ∧ w.toIntegerPairs? = .ok [(-1, 2), (6, 2)]
      ∧ (∃ p q, v.polynomialOfPairs? (some "s") = .ok p ∧ w.polynomialOfPairs? none = .ok q
        ∧ p.integerPairs = [(-1, 2), (3, 1)] ∧ p.label = some "s" ∧ (p == q) = true)
      ∧ ∃ n d, (function r).pairs? = .ok (tuple [n, d])
        ∧ Calculator.functionOfPairs? ⟨[n, d], []⟩ = .ok r := by
  intro v w r
  obtain ⟨-, hread, hsame, -, hfunction⟩ := pair_format
  have hv : v.toIntegerPairs? = .ok [(2, -4), (3, 1), (0, -5)] := rfl
  have hw : w.toIntegerPairs? = .ok [(-1, 2), (6, 2)] := rfl
  have hequal : pairCoefficient [(2, -4), (3, 1), (0, -5)] = pairCoefficient [(-1, 2), (3, 1)] := by
    funext i
    rcases i with _ | _ | _ | i <;> norm_num [pairCoefficient, pairQuotients]
  have hequal' : pairCoefficient [(-1, 2), (6, 2)] = pairCoefficient [(-1, 2), (3, 1)] := by
    funext i
    rcases i with _ | _ | _ | i <;> norm_num [pairCoefficient, pairQuotients]
  obtain ⟨p, hp, hlabel, -, -, hunique⟩ :=
    hread v _ (some "s") hv (by decide) (by decide)
  obtain ⟨q, hq, -⟩ := hread w _ none hw (by decide) (by decide)
  refine ⟨hv, hw, ⟨p, q, hp, hq, ?_, hlabel, ?_⟩, ?_⟩
  · exact (hunique _ (by decide) hequal.symm).symm
  · obtain ⟨hcoefficients, hpairs⟩ := hsame v w _ _ _ _ p q hv hw hp hq
    exact hpairs.mpr (hcoefficients.mp (hequal.trans hequal'.symm))
  · obtain ⟨n, d, hnd, -, -, hrestored⟩ := hfunction r
    obtain ⟨s, hs, hnum, hden⟩ := hrestored ⟨[n, d], []⟩ none rfl rfl rfl
    cases s
    cases hnum
    cases hden
    exact ⟨n, d, hnd, hs⟩

end Value

end ExactAlgebra
