import ExactAlgebra.Proofs.Value.Operand
import ExactAlgebra.Value.Number

/-!
Hashes of equal values, and the values that a set keeps apart.

* **Keys.** A key is the same as itself (`HashKey.same_self`). Polynomials and rational functions
  of one element of `ℚ(X)` have one key (`ofFunction_congr`, `ofFunction_ofPolynomial`), which is a
  sequence; the key of a number is none (`Operand.key_number_ne`).
* **Equal operands.** Equal operands have the same hash unless `splitsHash` holds of them: one is a
  rational function and the other a number, or one is a computed fraction and the other is not
  (`Operand.key_same_of_same`).
* **Sets.** Taking values one after the other keeps a list in which no member is a duplicate of an
  earlier one and which has a duplicate of every value (`IsTransversal.insert` for one value,
  `IsTransversal.foldl` for all, `exists_kept` for operands).

Main statement: `hash_coherence`.
-/

open Polynomial

namespace ExactAlgebra

open RationalFunction

/-! ### Keys -/

namespace HashKey

mutual

/-- A key is the same as itself. -/
theorem same_self : (k : HashKey) → k.same k = true
  | number _ | computedFraction _ | text _ | bytes _ | float _ => by simp [same]
  | absent | infinite | undefined => rfl
  | sequence keys => by rw [same, sameAll_self keys]

/-- A list of keys is the same as itself. -/
theorem sameAll_self : (keys : List HashKey) → sameAll keys keys = true
  | [] => rfl
  | k :: ks => by rw [sameAll, same_self k, sameAll_self ks, Bool.and_self]

end

lemma ofPolynomial_congr {p q : Polynomial} (h : p.toPoly = q.toPoly) :
    ofPolynomial p = ofPolynomial q := by
  rw [ofPolynomial, ofPolynomial, Polynomial.coefficients_eq_iff.mpr h]

/-- Functions of one element of `ℚ(X)` have one canonical form and hence one key. -/
lemma ofFunction_congr {r s : RationalFunction} (h : r.toRatFunc = s.toRatFunc) :
    ofFunction r = ofFunction s := by
  obtain ⟨hnum, hden⟩ := r.isReduced_simplify.ext s.isReduced_simplify
    (by rw [toRatFunc_simplify, toRatFunc_simplify, h])
  have hone : (r.simplify.denominator == .one none) = (s.simplify.denominator == .one none) := by
    rw [Bool.eq_iff_iff, Polynomial.beq_iff_toPoly, Polynomial.beq_iff_toPoly, hden]
  rw [ofFunction, ofFunction, hone, ofPolynomial_congr hnum, ofPolynomial_congr hden]

/-- A polynomial has the key of the function over the denominator one. -/
lemma ofFunction_ofPolynomial (p : Polynomial) :
    ofFunction (.ofPolynomial p) = ofPolynomial p := by
  have hfraction : (RationalFunction.ofPolynomial p).simplify.toRatFunc
      = algebraMap ℚ[X] (RatFunc ℚ) p.toPoly / algebraMap ℚ[X] (RatFunc ℚ) 1 := by
    rw [toRatFunc_simplify, toRatFunc_ofPolynomial, map_one, div_one]
  obtain ⟨hnum, hden⟩ := (RationalFunction.ofPolynomial p).isReduced_simplify.toPoly_eq
    isCoprime_one_right monic_one hfraction
  have hone : ((RationalFunction.ofPolynomial p).simplify.denominator == .one none) = true := by
    rw [Polynomial.beq_iff_toPoly, hden, Polynomial.toPoly_one]
  rw [ofFunction, if_pos hone, ofPolynomial_congr hnum]

/-- The key of a function is a sequence. -/
lemma exists_ofFunction (r : RationalFunction) : ∃ keys, ofFunction r = sequence keys := by
  rw [ofFunction]
  split
  · exact ⟨_, rfl⟩
  · exact ⟨_, rfl⟩

end HashKey

/-! ### Numbers -/

namespace Value

variable {v w : Value} {c d : ℚ}

/-- A number is a numeral, or it is compared by its value. -/
lemma eq_text_or_comparable? (hv : v.toRational? = .ok c) :
    (∃ s, v = text s) ∨ v.comparable? = some c := by
  rcases toRational?_eq_ok_iff.mp hv with ⟨n, rfl, rfl⟩ | ⟨n, rfl, rfl⟩ | rfl | rfl | ⟨s, rfl, -⟩
  · exact .inr rfl
  · exact .inr rfl
  · exact .inr rfl
  · exact .inr rfl
  · exact .inl ⟨s, rfl⟩

/-- A numeral is equal to no number but itself. -/
lemma eq_text_of_same {s : String} (hw : w.toRational? = .ok d)
    (h : (text s).same w = true ∨ w.same (text s) = true) : w = text s := by
  rcases toRational?_eq_ok_iff.mp hw with
      ⟨n, rfl, rfl⟩ | ⟨n, rfl, rfl⟩ | rfl | rfl | ⟨t, rfl, -⟩ <;>
    simp_all [same, plain, samePlain, comparable?]
  rcases h with rfl | rfl <;> rfl

/-- Numbers that are no numerals are equal when their values are. -/
lemma same_of_comparable? (hv : v.toRational? = .ok c) (hw : w.toRational? = .ok d)
    (hvc : v.comparable? = some c) (hwd : w.comparable? = some d) : v.same w = decide (c = d) := by
  rcases toRational?_eq_ok_iff.mp hv with
      ⟨m, rfl, rfl⟩ | ⟨m, rfl, rfl⟩ | rfl | rfl | ⟨s, rfl, -⟩ <;>
    rcases toRational?_eq_ok_iff.mp hw with
      ⟨n, rfl, rfl⟩ | ⟨n, rfl, rfl⟩ | rfl | rfl | ⟨t, rfl, -⟩ <;>
    simp_all [same, plain, samePlain, comparable?]

end Value

/-! ### Equal operands -/

namespace Operand

/-- The key of an operand. -/
def key : Operand → HashKey
  | number (.text s) _ _ => .text s
  | number v c _ => if v.isComputedFraction then .computedFraction c else .number c
  | polynomial p => .ofPolynomial p
  | function r => .ofFunction r

lemma hashKey?_value (a : Operand) : a.value.hashKey? = some a.key := by
  match a with
  | number v c reads =>
      rcases Value.toRational?_eq_ok_iff.mp reads with
        ⟨n, rfl, rfl⟩ | ⟨n, rfl, rfl⟩ | rfl | rfl | ⟨s, rfl, -⟩
      · rfl
      · rfl
      · rfl
      · simp [value, key, Value.hashKey?, Value.isComputedFraction, HashKey.ofRational]
      · rfl
  | polynomial p => rfl
  | function r => rfl

lemma key_of_comparable? {v : Value} {c : ℚ} (reads : v.toRational? = .ok c)
    (h : v.comparable? = some c) :
    (number v c reads).key = if v.isComputedFraction then .computedFraction c else .number c := by
  rcases Value.toRational?_eq_ok_iff.mp reads with
    ⟨n, rfl, rfl⟩ | ⟨n, rfl, rfl⟩ | rfl | rfl | ⟨s, rfl, -⟩
  · rfl
  · rfl
  · rfl
  · rfl
  · exact nomatch h

/-- Two operands whose hashes are not the same even if they are equal: a rational function and a
number, or a computed fraction and an operand of another form. -/
def splitsHash : Operand → Operand → Bool
  | function _, b => b.isNumber
  | a, function _ => a.isNumber
  | a, b => a.value.isComputedFraction != b.value.isComputedFraction

/-- Polynomials and rational functions are compared, and have their keys, as functions. -/
lemma exists_ofQuotient {a : Operand} (ha : a.isNumber = false) :
    a.key = .ofFunction a.toFunction ∧
      ∃ s, a.value = Value.ofQuotient s ∧ a.toFunction = Value.quotientFunction s := by
  match a with
  | polynomial p => exact ⟨(HashKey.ofFunction_ofPolynomial p).symm, .inl p, rfl, rfl⟩
  | function r => exact ⟨rfl, .inr r, rfl, rfl⟩

/-- The key of a number is not that of a rational function. -/
lemma key_number_ne {v : Value} {c : ℚ} (reads : v.toRational? = .ok c) (r : RationalFunction) :
    (number v c reads).key.same (.ofFunction r) = false
      ∧ (HashKey.ofFunction r).same (number v c reads).key = false := by
  obtain ⟨keys, hkeys⟩ := HashKey.exists_ofFunction r
  rw [hkeys]
  rcases Value.eq_text_or_comparable? reads with ⟨s, rfl⟩ | hc
  · exact ⟨rfl, rfl⟩
  · rw [key_of_comparable? reads hc]
    split <;> exact ⟨rfl, rfl⟩

/-- Equal numbers have the same key if both are computed fractions or neither is. -/
lemma key_same_of_numbers {v w : Value} {c d : ℚ} (hv : v.toRational? = .ok c)
    (hw : w.toRational? = .ok d) (h : v.same w = true) :
    (number v c hv).key.same (number w d hw).key
      = !(v.isComputedFraction != w.isComputedFraction) := by
  rcases Value.eq_text_or_comparable? hv with ⟨s, rfl⟩ | hvc
  · obtain rfl := Value.eq_text_of_same hw (.inl h)
    exact HashKey.same_self (.text s)
  rcases Value.eq_text_or_comparable? hw with ⟨t, rfl⟩ | hwd
  · obtain rfl := Value.eq_text_of_same hv (.inr h)
    exact HashKey.same_self (.text t)
  rw [Value.same_of_comparable? hv hw hvc hwd, decide_eq_true_eq] at h
  rw [key_of_comparable? hv hvc, key_of_comparable? hw hwd, ← h]
  cases v.isComputedFraction <;> cases w.isComputedFraction
  · exact HashKey.same_self (.number c)
  · rfl
  · rfl
  · exact HashKey.same_self (.computedFraction c)

/-- A polynomial is equal to no number. -/
lemma same_polynomial_number {v : Value} {c : ℚ} (reads : v.toRational? = .ok c) (p : Polynomial) :
    (Value.polynomial p).same v = false ∧ v.same (.polynomial p) = false := by
  rcases Value.toRational?_eq_ok_iff.mp reads with
      ⟨n, rfl, rfl⟩ | ⟨n, rfl, rfl⟩ | rfl | rfl | ⟨s, rfl, -⟩ <;>
    exact ⟨rfl, rfl⟩

/-- Equal polynomials and rational functions have the same key. -/
lemma key_same_of_functions {a b : Operand} (ha : a.isNumber = false) (hb : b.isNumber = false)
    (h : a.value.same b.value = true) : a.key.same b.key = true := by
  obtain ⟨hakey, s, hs, has⟩ := exists_ofQuotient ha
  obtain ⟨hbkey, t, ht, hbt⟩ := exists_ofQuotient hb
  rw [hs, ht, Value.same_ofQuotient_iff, ← has, ← hbt] at h
  rw [hakey, hbkey, HashKey.ofFunction_congr h]
  exact HashKey.same_self _

/-- The hashes of equal operands are the same unless their forms split them. -/
lemma key_same_of_same {a b : Operand} (h : a.value.same b.value = true) :
    a.key.same b.key = !splitsHash a b := by
  match a, b with
  | number v c hv, number w d hw => exact key_same_of_numbers hv hw h
  | number v c hv, polynomial q => exact absurd h (by simp [value, same_polynomial_number hv])
  | number v c hv, function s => exact (key_number_ne hv s).1
  | polynomial p, number w d hw => exact absurd h (by simp [value, same_polynomial_number hw])
  | polynomial p, polynomial q => exact key_same_of_functions rfl rfl h
  | polynomial p, function s => exact key_same_of_functions rfl rfl h
  | function r, number w d hw => exact (key_number_ne hw r).2
  | function r, polynomial q => exact key_same_of_functions rfl rfl h
  | function r, function s => exact key_same_of_functions rfl rfl h

lemma same_self (a : Operand) : a.value.same a.value = true := by
  match a with
  | number v c reads =>
      rcases Value.eq_text_or_comparable? reads with ⟨s, rfl⟩ | hc
      · exact decide_eq_true rfl
      · rw [value, Value.same_of_comparable? reads reads hc hc, decide_eq_true_eq]
  | polynomial p => exact (Value.same_ofQuotient_iff (.inl p) (.inl p)).mpr rfl
  | function r => exact (Value.same_ofQuotient_iff (.inr r) (.inr r)).mpr rfl

lemma splitsHash_self (a : Operand) : splitsHash a a = false := by
  cases a <;> simp [splitsHash, isNumber]

end Operand

/-! ### Sets -/

section Transversal

variable {α : Type} {duplicate : α → α → Bool} {kept seen : List α}

/-- A list with a further member, unless it is a duplicate of one that is there. -/
def insertNew (duplicate : α → α → Bool) (kept : List α) (a : α) : List α :=
  if kept.any (duplicate · a) then kept else a :: kept

/-- Members of a list, the last one first, such that none is a duplicate of an earlier one and
every member of the list is one of them or a duplicate of one. -/
structure IsTransversal (duplicate : α → α → Bool) (kept seen : List α) : Prop where
  subset : ∀ a ∈ kept, a ∈ seen
  separate : kept.Pairwise fun a b => duplicate b a = false
  covers : ∀ a ∈ seen, ∃ b ∈ kept, b = a ∨ duplicate b a = true

lemma IsTransversal.nil : IsTransversal duplicate [] [] :=
  ⟨fun _ h => h, .nil, fun _ h => absurd h List.not_mem_nil⟩

lemma IsTransversal.insert (h : IsTransversal duplicate kept seen) (a : α) :
    IsTransversal duplicate (insertNew duplicate kept a) (a :: seen) := by
  rw [insertNew]
  split
  · next hany =>
      -- a duplicate is not kept, and the value that is kept covers it
      obtain ⟨b, hb, hdup⟩ := List.any_eq_true.mp hany
      refine ⟨fun c hc => List.mem_cons_of_mem _ (h.subset c hc), h.separate, fun c hc => ?_⟩
      rcases List.mem_cons.mp hc with rfl | hc
      · exact ⟨b, hb, .inr hdup⟩
      · exact h.covers c hc
  · next hany =>
      refine ⟨fun c hc => ?_, List.pairwise_cons.mpr ⟨fun b hb => ?_, h.separate⟩, fun c hc => ?_⟩
      · rcases List.mem_cons.mp hc with rfl | hc
        · exact List.mem_cons_self
        · exact List.mem_cons_of_mem _ (h.subset c hc)
      · rw [List.any_eq_true, not_exists] at hany
        exact Bool.not_eq_true _ ▸ fun hdup => hany b ⟨hb, hdup⟩
      · rcases List.mem_cons.mp hc with rfl | hc
        · exact ⟨c, List.mem_cons_self, .inl rfl⟩
        · obtain ⟨b, hb, hdup⟩ := h.covers c hc
          exact ⟨b, List.mem_cons_of_mem _ hb, hdup⟩

/-- Inserting values one after the other leaves a transversal of all of them. -/
lemma IsTransversal.foldl (h : IsTransversal duplicate kept seen) (as : List α) :
    IsTransversal duplicate (as.foldl (insertNew duplicate) kept) (as.reverse ++ seen) := by
  induction as generalizing kept seen with
  | nil => exact h
  | cons a as ih =>
      rw [List.foldl_cons, List.reverse_cons, List.append_assoc, List.singleton_append]
      exact ih (h.insert a)

lemma foldl_insertNew_map {β : Type} (f : α → β) (duplicate : β → β → Bool) (kept as : List α) :
    (as.map f).foldl (insertNew duplicate) (kept.map f)
      = (as.foldl (insertNew fun a b => duplicate (f a) (f b)) kept).map f := by
  induction as generalizing kept with
  | nil => rfl
  | cons a as ih =>
      have hstep : insertNew duplicate (kept.map f) (f a)
          = (insertNew (fun a b => duplicate (f a) (f b)) kept a).map f := by
        rw [insertNew, insertNew, List.any_map, apply_ite (List.map f)]
        rfl
      rw [List.map_cons, List.foldl_cons, hstep, ih, List.foldl_cons]

end Transversal

namespace Operand

/-- Whether an operand is a duplicate of another one in a set. -/
def isDuplicate (a b : Operand) : Bool := Value.isDuplicate (a.key, a.value) (b.key, b.value)

lemma isDuplicate_iff {a b : Operand} :
    isDuplicate a b = true ↔ a.value.same b.value = true ∧ splitsHash a b = false := by
  rw [isDuplicate, Value.isDuplicate, Bool.and_eq_true, and_comm]
  exact and_congr_right fun h => by rw [key_same_of_same h, Bool.not_eq_true']

lemma mapM_key (as : List Operand) :
    ((as.map value).mapM fun v => v.hashKey?.map fun k => (k, v))
      = some (as.map fun a => (a.key, a.value)) := by
  induction as with
  | nil => rfl
  | cons a as ih => simp [ih, hashKey?_value]

/-- The number of different values is the length of the list that is left when each is inserted
unless it is a duplicate. -/
lemma distinct?_eq (as : List Operand) :
    Value.distinct? (as.map value) = .ok (as.foldl (insertNew isDuplicate) []).length := by
  have hfold := foldl_insertNew_map (fun a : Operand => (a.key, a.value)) Value.isDuplicate [] as
  rw [Value.distinct?, mapM_key]
  change Except.ok (((as.map fun a => (a.key, a.value)).foldl
    (insertNew Value.isDuplicate) []).length) = _
  rw [← List.map_nil, hfold, List.length_map]
  rfl

end Operand

namespace Value

/-- The size of a set of operands is the number of those that it keeps. Two that are kept are equal
only if they are split, and every operand is equal to one that is kept. -/
lemma exists_kept (as : List Operand) :
    ∃ kept : List Operand, distinct? (as.map Operand.value) = .ok kept.length
      ∧ (∀ a ∈ kept, a ∈ as)
      ∧ (kept.Pairwise fun a b => b.value.same a.value = true → Operand.splitsHash b a = true)
      ∧ ∀ a ∈ as, ∃ b ∈ kept, b.value.same a.value = true ∧ Operand.splitsHash b a = false := by
  have hkept : IsTransversal Operand.isDuplicate
      (as.foldl (insertNew Operand.isDuplicate) []) as.reverse :=
    List.append_nil as.reverse ▸ IsTransversal.nil.foldl as
  refine ⟨_, Operand.distinct?_eq as, fun a ha => List.mem_reverse.mp (hkept.subset a ha), ?_,
    fun a ha => ?_⟩
  · refine hkept.separate.imp fun {a b} hdup hsame => ?_
    by_contra hsplit
    have := Operand.isDuplicate_iff.mpr ⟨hsame, Bool.not_eq_true _ ▸ hsplit⟩
    rw [hdup] at this
    exact absurd this Bool.false_ne_true
  · obtain ⟨b, hb, rfl | hdup⟩ := hkept.covers a (List.mem_reverse.mpr ha)
    · exact ⟨b, hb, b.same_self, b.splitsHash_self⟩
    · exact ⟨b, hb, Operand.isDuplicate_iff.mp hdup⟩

/-- **Hashes of equal values.** Operands are numbers, polynomials and rational functions. The hashes
of two equal operands are the same exactly when the operands are not split: unless one is a
rational function and the other a number, or one is a computed fraction and the other a number of
another form. Hence a set of operands, of which equal ones are never split, counts no two equal
operands: it keeps operands that are pairwise unequal, and each operand is equal to one of them. -/
theorem hash_coherence (a b : Operand) (hab : a.value.same b.value = true) (as : List Operand)
    (has : ∀ c ∈ as, ∀ d ∈ as, c.value.same d.value = true → Operand.splitsHash c d = false) :
    a.value.sameHash? b.value = .ok (!Operand.splitsHash a b)
    ∧ ∃ kept : List Operand, distinct? (as.map Operand.value) = .ok kept.length
      ∧ (∀ c ∈ kept, c ∈ as)
      ∧ (kept.Pairwise fun c d => d.value.same c.value = false)
      ∧ ∀ c ∈ as, ∃ d ∈ kept, d.value.same c.value = true := by
  constructor
  · rw [sameHash?, Operand.hashKey?_value, Operand.hashKey?_value, ← Operand.key_same_of_same hab]
  · obtain ⟨kept, hsize, hsubset, hseparate, hcovers⟩ := exists_kept as
    refine ⟨kept, hsize, hsubset, hseparate.imp_of_mem fun {c d} hc hd hsplit => ?_, fun c hc => ?_⟩
    · refine Bool.eq_false_iff.mpr fun hsame => ?_
      have hmet := has d (hsubset d hd) c (hsubset c hc) hsame
      rw [hsplit hsame] at hmet
      exact Bool.false_ne_true hmet.symm
    · obtain ⟨d, hd, hsame, -⟩ := hcovers c hc
      exact ⟨d, hd, hsame⟩

/-- The unreduced function `(2 + 2x) / 2` and the polynomial `1 + t`, which are equal. -/
theorem hash_coherence_unreduced :
    let r : RationalFunction := ⟨.ofList [2, 2] none, .ofList [2] none, by decide +kernel⟩
    let p : Polynomial := .ofList [1, 1] (some "t")
    (function r).same (polynomial p) = true
      ∧ (function r).sameHash? (polynomial p) = .ok true
      ∧ ∃ kept : List Operand, distinct? [function r, polynomial p] = .ok kept.length
        ∧ kept.Pairwise fun c d => d.value.same c.value = false := by
  intro r p
  have hsame : (function r).same (polynomial p) = true := by decide +kernel
  obtain ⟨hhash, kept, hsize, -, hseparate, -⟩ :=
    hash_coherence (.function r) (.polynomial p) hsame [.function r, .polynomial p]
      (by simp [Operand.splitsHash, Operand.isNumber, Value.isComputedFraction, Operand.value])
  exact ⟨hsame, hhash, kept, hsize, hseparate⟩

/-- The rational function `3` is equal to the integer `3`, but their hashes are not the same, and a
set keeps both. -/
theorem hash_constant_function :
    (function (const 3)).same (integer 3) = true
      ∧ (function (const 3)).sameHash? (integer 3) = .ok false
      ∧ distinct? [function (const 3), integer 3] = .ok 2 := by
  decide +kernel

end Value

end ExactAlgebra
