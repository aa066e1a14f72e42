import Mathlib.Algebra.Polynomial.RuleOfSigns
import ExactAlgebra.Proofs.Polynomial.Denotation
import ExactAlgebra.Proofs.Rational.Sign

/-!
Sign changes of coefficient lists.

* **Signs.** `Coefficients.signs` lists the signs of the coefficients that are not zero. The first
  one is that of the trailing coefficient and the last one that of the leading coefficient
  (`head?_signs`, `getLast?_signs`).
* **Parity.** A list of signs has an even number of changes when it begins and ends with the same
  sign (`even_countChanges_iff`), so the changes of a polynomial are even when its trailing and
  its leading coefficient have one sign (`even_signChanges_iff`).
* **Variations.** The changes are the sign variations that are read in `ℚ[X]` from the leading
  coefficient down (`signChanges_eq_signVariations`).
* **Reflection.** `reflect` substitutes `-x`. Between two neighbouring coefficients that are not
  zero the sign changes in the list or in its reflection, and over a gap of zeros in both at most,
  so that all changes and the zeros at the low end are no more than the degree
  (`signChanges_add_reflect_le`).
-/

open Polynomial

namespace ExactAlgebra

/-! ### Changes in a list -/

lemma countChanges_cons_cons (s t : ℤ) (l : List ℤ) :
    countChanges (s :: t :: l) = (if s = t then 0 else 1) + countChanges (t :: l) := rfl

@[simp] lemma countChanges_singleton (s : ℤ) : countChanges [s] = 0 := rfl

/-- Changes remain changes when all signs are turned. -/
lemma countChanges_map_neg (l : List ℤ) : countChanges (l.map fun s => -s) = countChanges l := by
  induction l with
  | nil => rfl
  | cons s l ih =>
      cases l with
      | nil => rfl
      | cons t l =>
          rw [List.map_cons] at ih
          rw [List.map_cons, List.map_cons, countChanges_cons_cons, countChanges_cons_cons, ih]
          simp only [neg_inj]

/-- The last sign adds a change when it differs from the one before. -/
lemma countChanges_concat (l : List ℤ) (s t : ℤ) :
    countChanges (l ++ [s, t]) = countChanges (l ++ [s]) + if s = t then 0 else 1 := by
  induction l with
  | nil => exact Nat.add_comm _ _
  | cons u l ih =>
      cases l with
      | nil =>
          simp only [List.singleton_append, countChanges_cons_cons, countChanges_singleton,
            Nat.add_zero]
      | cons v l =>
          rw [List.cons_append, List.cons_append] at ih
          rw [List.cons_append, List.cons_append, List.cons_append, List.cons_append,
            countChanges_cons_cons, countChanges_cons_cons, ih, Nat.add_assoc]

/-- Changes are counted alike from both ends. -/
lemma countChanges_reverse (l : List ℤ) : countChanges l.reverse = countChanges l := by
  induction l with
  | nil => rfl
  | cons s l ih =>
      cases l with
      | nil => rfl
      | cons t l =>
          have hswap : (if t = s then 0 else 1) = if s = t then 0 else 1 := by
            simp only [eq_comm]
          rw [List.reverse_cons] at ih
          rw [List.reverse_cons, List.reverse_cons, List.append_assoc, List.singleton_append,
            countChanges_concat, ih, countChanges_cons_cons, hswap, Nat.add_comm]

/-- Removing the repetitions of neighbours leaves one member more than there are changes. -/
lemma length_destutter' (s : ℤ) (l : List ℤ) :
    (l.destutter' (· ≠ ·) s).length = countChanges (s :: l) + 1 := by
  induction l generalizing s with
  | nil => rfl
  | cons t l ih =>
      rw [countChanges_cons_cons, List.destutter'_cons]
      by_cases hst : s = t
      · rw [if_neg (not_not.mpr hst), if_pos hst, ih, hst, Nat.zero_add]
      · rw [if_pos hst, if_neg hst, List.length_cons, ih, Nat.add_comm 1]

/-- Each change opens a new run of equal signs. -/
lemma length_destutter (l : List ℤ) : (l.destutter (· ≠ ·)).length - 1 = countChanges l := by
  cases l with
  | nil => rfl
  | cons s l => rw [List.destutter_cons', length_destutter', Nat.add_sub_cancel]

/-- Signs change an even number of times between two equal ones. -/
lemma even_countChanges_iff {l : List ℤ} (hl : ∀ s ∈ l, IsSign s) {s t : ℤ}
    (hs : l.head? = some s) (ht : l.getLast? = some t) : Even (countChanges l) ↔ s = t := by
  induction l generalizing s with
  | nil => cases hs
  | cons u l ih =>
      obtain rfl : u = s := Option.some.inj hs
      cases l with
      | nil =>
          rw [List.getLast?_singleton, Option.some.injEq] at ht
          simp [ht]
      | cons v l =>
          rw [List.getLast?_cons_cons] at ht
          have htail := ih (fun s hs => hl s (List.mem_cons_of_mem u hs)) rfl ht
          rw [countChanges_cons_cons]
          by_cases huv : u = v
          · rw [if_pos huv, Nat.zero_add, htail, huv]
          · -- the two signs there are: one of them is the last
            have hu := hl u List.mem_cons_self
            have hv := hl v (List.mem_cons_of_mem u List.mem_cons_self)
            have ht' := hl t (List.mem_cons_of_mem u (List.mem_of_getLast? ht))
            rw [if_neg huv, Nat.add_comm, Nat.even_add_one, htail]
            unfold IsSign at hu hv ht'
            omega

/-! ### The signs of coefficients -/

namespace Coefficients

/-- The signs of the coefficients that are not zero. -/
def signs (as : List ℚ) : List ℤ := (as.filter fun a => a ≠ 0).map rationalSign

@[simp] lemma signs_nil : signs [] = [] := rfl

@[simp] lemma signs_zero_cons (as : List ℚ) : signs (0 :: as) = signs as := rfl

lemma signs_cons {a : ℚ} (ha : a ≠ 0) (as : List ℚ) :
    signs (a :: as) = rationalSign a :: signs as := by
  rw [signs, List.filter_cons_of_pos (by simpa using ha), List.map_cons, signs]

lemma signs_append (as bs : List ℚ) : signs (as ++ bs) = signs as ++ signs bs := by
  rw [signs, List.filter_append, List.map_append, signs, signs]

/-- Read backwards, the signs are those of the reversed list. -/
lemma signs_reverse (as : List ℚ) : signs as.reverse = (signs as).reverse := by
  rw [signs, List.filter_reverse, List.map_reverse, signs]

@[simp] lemma signs_neg (as : List ℚ) : signs (neg as) = (signs as).map fun s => -s := by
  induction as with
  | nil => rfl
  | cons a as ih =>
      rw [neg] at ih ⊢
      rw [List.map_cons]
      by_cases ha : a = 0
      · rw [ha, neg_zero, signs_zero_cons, signs_zero_cons, ih]
      · rw [signs_cons (neg_ne_zero.mpr ha), signs_cons ha, List.map_cons, ih, rationalSign_neg]

/-- Zeros have no signs, and so trailing ones do not count. -/
lemma signs_trim (as : List ℚ) : signs (trim as) = signs as := by
  induction as with
  | nil => rfl
  | cons a as ih =>
      have hcons : signs (a :: as) = signs [a] ++ signs (trim as) := by
        rw [ih, ← signs_append, List.singleton_append]
      rw [hcons, trim]
      split
      · next h => by_cases ha : a = 0 <;> simp [h, ha]
      · next d ds h => rw [h, ← signs_append, List.singleton_append]

lemma isSign_of_mem_signs {as : List ℚ} {s : ℤ} (hs : s ∈ signs as) : IsSign s := by
  obtain ⟨a, ha, rfl⟩ := List.mem_map.mp hs
  exact isSign_rationalSign (by simpa using (List.mem_filter.mp ha).2)

lemma trailingCoeff_X : (X : ℚ[X]).trailingCoeff = 1 := by
  rw [trailingCoeff, natTrailingDegree_X, coeff_X_one]

/-- The first coefficient that is not zero is the trailing one. -/
lemma trailingCoeff_toPoly_cons {a : ℚ} (ha : a ≠ 0) (as : List ℚ) :
    (toPoly (a :: as)).trailingCoeff = a := by
  have hcoeff : (toPoly (a :: as)).coeff 0 = a := coeff_toPoly _ 0
  rw [trailingCoeff_eq_coeff_zero (by rwa [hcoeff]), hcoeff]

/-- The first sign is that of the trailing coefficient. -/
lemma head?_signs {as : List ℚ} (h : toPoly as ≠ 0) :
    (signs as).head? = some (rationalSign (toPoly as).trailingCoeff) := by
  induction as with
  | nil => exact absurd rfl h
  | cons a as ih =>
      by_cases ha : a = 0
      · rw [ha, toPoly_cons, C_0, zero_add] at h ⊢
        rw [signs_zero_cons, ih (right_ne_zero_of_mul h), trailingCoeff_mul,
          trailingCoeff_X, one_mul]
      · rw [signs_cons ha, trailingCoeff_toPoly_cons ha, List.head?_cons]

/-- The last sign is that of the last coefficient, which is not zero. -/
lemma getLast?_signs {as : List ℚ} (h : as.getLastD 0 ≠ 0) :
    (signs as).getLast? = some (rationalSign (as.getLastD 0)) := by
  rcases List.eq_nil_or_concat as with rfl | ⟨bs, b, rfl⟩
  · exact absurd rfl h
  · rw [List.concat_eq_append, List.getLastD_concat] at h ⊢
    rw [signs_append, signs_cons h, signs_nil, List.getLast?_concat]

end Coefficients

namespace Polynomial

open Coefficients (signs)

variable {p q : Polynomial}

/-- The changes are counted over the coefficients that are not zero. -/
lemma signChanges_eq (p : Polynomial) : p.signChanges = countChanges (signs p.ascending) := rfl

/-- The number of changes is even when the trailing and the leading coefficient have one sign. -/
lemma even_signChanges_iff (hp : p.isZero = false) :
    Even p.signChanges ↔
      rationalSign p.toPoly.trailingCoeff = rationalSign p.toPoly.leadingCoeff := by
  rw [← leadingCoefficient_eq]
  exact even_countChanges_iff (fun _ => Coefficients.isSign_of_mem_signs)
    (Coefficients.head?_signs (toPoly_ne_zero_iff.mpr hp))
    (Coefficients.getLast?_signs (leadingCoefficient_ne_zero hp))

/-! ### Sign variations -/

lemma coeffList_toPoly (p : Polynomial) : p.toPoly.coeffList = p.ascending.reverse := by
  cases hp : p.isZero with
  | true => rw [toPoly_eq_zero_iff.mpr hp, coeffList_zero, isZero_iff.mp hp, List.reverse_nil]
  | false =>
      rw [coeffList, withBotSucc_degree_eq_natDegree_add_one (toPoly_ne_zero_iff.mpr hp),
        ← length_ascending hp, List.map_reverse]
      congr 1
      refine List.ext_getElem (by simp) fun n h₁ h₂ => ?_
      simp [← coefficient_eq, coefficient, List.getD_eq_getElem?_getD, h₂]

lemma signVariations_eq (f : ℚ[X]) : f.signVariations = countChanges (signs f.coeffList) := by
  have hcast : Function.Injective fun s : SignType => (s : ℤ) := by decide
  have hsigns : ((f.coeffList.map SignType.sign).filter fun s => s ≠ 0).map
      (fun s : SignType => (s : ℤ)) = signs f.coeffList := by
    rw [List.filter_map, List.map_map, signs]
    congr 1
    · exact funext fun a => (rationalSign_eq_cast a).symm
    · exact List.filter_congr fun a _ => by simp [sign_eq_zero_iff]
  rw [← hsigns, ← length_destutter, ← List.map_destutter_ne _ hcast,
    List.length_map,
    signVariations]

/-- The changes are the sign variations that `ℚ[X]` reads from the leading coefficient down. -/
lemma signChanges_eq_signVariations (p : Polynomial) :
    p.signChanges = p.toPoly.signVariations := by
  rw [signVariations_eq, coeffList_toPoly, Coefficients.signs_reverse, countChanges_reverse,
    signChanges_eq]

/-- The number of changes does not depend on the label. -/
lemma signChanges_congr (h : p.toPoly = q.toPoly) : p.signChanges = q.signChanges := by
  rw [signChanges_eq, signChanges_eq, toPoly_inj.mp h]

/-! ### Reflection -/

lemma alternateSigns_cons (a : ℚ) (as : List ℚ) :
    alternateSigns (a :: as) = a :: Coefficients.neg (alternateSigns as) := by
  induction as using alternateSigns.induct generalizing a with
  | case1 => rfl
  | case2 b => rfl
  | case3 b c as ih =>
      rw [alternateSigns, ih c, alternateSigns]
      simp [Coefficients.neg]

/-- The reflected polynomial is the composition with `-x`. -/
lemma toPoly_alternateSigns (as : List ℚ) :
    Coefficients.toPoly (alternateSigns as) = (Coefficients.toPoly as).comp (-X) := by
  induction as with
  | nil => simp [alternateSigns]
  | cons a as ih =>
      rw [alternateSigns_cons, Coefficients.toPoly_cons, Coefficients.toPoly_neg, ih,
        Coefficients.toPoly_cons, add_comp, C_comp, mul_comp, X_comp]
      ring

/-- Before the signs of a reflected tail its sign is read the other way round. -/
lemma countChanges_cons_signs_neg (t : ℤ) (as : List ℚ) :
    countChanges (t :: signs (Coefficients.neg as)) = countChanges (-t :: signs as) := by
  rw [← countChanges_map_neg (-t :: _), Coefficients.signs_neg, List.map_cons, neg_neg]

/-- Turning every second sign replaces `x` by `-x`. -/
lemma toPoly_reflect (p : Polynomial) : p.reflect.toPoly = p.toPoly.comp (-X) := by
  rw [reflect, toPoly_ofList, toPoly_alternateSigns, toPoly]

/-- After a coefficient with the sign `s`: the changes of the list that follows and those of its
reflection are no more than its length, if the reflected sign is the opposite one, and at most one
more, if the number of places up to there leaves it the same. -/
lemma countChanges_add_alternateSigns_le (as : List ℚ) {s : ℤ} (hs : IsSign s) :
    countChanges (s :: signs as) + countChanges (-s :: signs (alternateSigns as)) ≤ as.length
      ∧ countChanges (s :: signs as) + countChanges (s :: signs (alternateSigns as))
        ≤ as.length + 1 := by
  induction as generalizing s with
  | nil => simp [alternateSigns]
  | cons a as ih =>
      rw [alternateSigns_cons]
      by_cases ha : a = 0
      · -- a gap of zeros exchanges the two cases, place by place
        obtain ⟨hopposite, hsame⟩ := ih hs
        rw [ha, Coefficients.signs_zero_cons, Coefficients.signs_zero_cons,
          countChanges_cons_signs_neg, countChanges_cons_signs_neg, neg_neg, List.length_cons]
        exact ⟨hsame, by omega⟩
      · -- a coefficient makes a change in one of the two lists only
        obtain ⟨hopposite, -⟩ := ih (isSign_rationalSign ha)
        have ht := isSign_rationalSign ha
        rw [Coefficients.signs_cons ha, Coefficients.signs_cons ha, countChanges_cons_cons,
          countChanges_cons_cons, countChanges_cons_cons, countChanges_cons_signs_neg,
          List.length_cons]
        unfold IsSign at hs ht
        constructor
        · split <;> split <;> omega
        · split <;> omega

/-- Zeros at the low end make no change: they take one place each. -/
lemma countChanges_signs_add_le {as : List ℚ} (h : Coefficients.toPoly as ≠ 0) :
    countChanges (signs as) + countChanges (signs (alternateSigns as))
      + (Coefficients.toPoly as).natTrailingDegree + 1 ≤ as.length := by
  induction as with
  | nil => exact absurd rfl h
  | cons a as ih =>
      rw [alternateSigns_cons]
      by_cases ha : a = 0
      · rw [ha, Coefficients.toPoly_cons, C_0, zero_add] at h ⊢
        -- a zero in front raises the trailing degree by one and changes no sign
        have htail := ih (right_ne_zero_of_mul h)
        rw [Coefficients.signs_zero_cons, Coefficients.signs_zero_cons, Coefficients.signs_neg,
          countChanges_map_neg, natTrailingDegree_mul X_ne_zero (right_ne_zero_of_mul h),
          natTrailingDegree_X, List.length_cons]
        omega
      · -- the trailing coefficient opens both lists of signs
        have hlow : (Coefficients.toPoly (a :: as)).natTrailingDegree = 0 := by
          rw [natTrailingDegree_eq_zero, Coefficients.coeff_toPoly]
          exact .inr ha
        obtain ⟨hopposite, -⟩ := countChanges_add_alternateSigns_le as (isSign_rationalSign ha)
        rw [hlow, Coefficients.signs_cons ha, Coefficients.signs_cons ha,
          countChanges_cons_signs_neg, List.length_cons]
        omega

/-- The changes of a polynomial and of its reflection, and the multiplicity of its root zero, are
together no more than its degree. -/
lemma signChanges_add_reflect_le (hp : p.isZero = false) :
    p.signChanges + p.reflect.signChanges + p.toPoly.rootMultiplicity 0
      ≤ p.toPoly.natDegree := by
  have hlist := countChanges_signs_add_le (toPoly_ne_zero_iff.mpr hp)
  rw [length_ascending hp] at hlist
  rw [signChanges_eq, signChanges_eq, reflect, ascending_ofList, Coefficients.signs_trim,
    rootMultiplicity_eq_natTrailingDegree']
  exact Nat.le_of_succ_le_succ hlist

end Polynomial

end ExactAlgebra
