import ExactAlgebra.Proofs.Labels.Value
import ExactAlgebra.Proofs.Value.Hashing

/-!
Equality and hashes do not depend on labels.

* **Equality.** Values are equal as they are without labels (`same_unlabelled`). Tuples with named
  fields lose names and labels in either order (`unlabelled_plain`), and what is left is compared
  side by side.
* **Hashes.** A value has the hash key that it has without labels (`hashKey?_unlabelled`); that of
  a rational function is taken from the canonical form.
* **Sets.** Values are duplicates as they are without labels, so a set keeps as many of them
  (`distinct?_unlabelled`).
-/

namespace ExactAlgebra

namespace Value

/-! ### Equality -/

mutual

/-- The names of fields and the labels are dropped in either order. -/
theorem unlabelled_plain : (v : Value) → v.plain.unlabelled = v.unlabelled.plain
  | rootFactorization f => by
      change tuple [(ofRoots f.roots).unlabelled, polynomial f.cofactor.unlabelled] = _
      rw [unlabelled_ofRoots]
      rfl
  | list items => congrArg list (unlabelledAll_plainAll items)
  | tuple items => congrArg tuple (unlabelledAll_plainAll items)
  | syntheticDivision _ | polynomial _ | function _ | taylor _ | decomposition _ => rfl
  | integer _ | machineInteger _ | fraction _ | rational _ | infinite | undefined => rfl
  | float _ | machineFloat _ | boolean _ | machineBoolean _ | absent | text _ | bytes _ => rfl
  | simpleFraction _ | signReport _ | expression _ => rfl

/-- Item by item, names and labels are dropped in either order. -/
theorem unlabelledAll_plainAll : (vs : List Value) →
    unlabelledAll (plainAll vs) = plainAll (unlabelledAll vs)
  | [] => rfl
  | v :: vs => by
      rw [plainAll, unlabelledAll, unlabelled_plain v, unlabelledAll_plainAll vs, unlabelledAll,
        plainAll]

end

/-- A function is compared by cross products with the function that the other value stands for, and
those do not see labels. -/
lemma sameFunction_unlabelled (r : RationalFunction) (v : Value) :
    sameFunction r.unlabelled v.unlabelled = sameFunction r v := by
  rw [sameFunction, sameFunction]
  rcases seen_eq_iff.mp v.seen_asFunction? with ⟨s, s', hs, hs', h⟩ | ⟨e, e', he, he', -⟩
  · rw [hs, hs']
    change (r.unlabelled == s) = (r == s')
    rw [← RationalFunction.unlabelled_beq, h, r.unlabelled_unlabelled,
      RationalFunction.unlabelled_beq]
  · rw [he, he']

mutual

/-- Values are compared as they are without labels. -/
theorem samePlain_unlabelled (v w : Value) :
    samePlain v.unlabelled w.unlabelled = samePlain v w := by
  -- a function may stand on either side; on the right it is asked only where the left has no answer
  have hfunction (r : RationalFunction) := sameFunction_unlabelled r v
  cases v with
  | function r =>
      rw [unlabelled, samePlain, samePlain]
      exact sameFunction_unlabelled r w
  | list vs =>
      cases w with
      | list ws => exact sameAll_unlabelled vs ws
      | function r => exact hfunction r
      | _ => rfl
  | tuple vs =>
      cases w with
      | tuple ws => exact sameAll_unlabelled vs ws
      | function r => exact hfunction r
      | _ => rfl
  | _ =>
      cases w with
      | function r => exact hfunction r
      | _ => rfl

/-- Lists of values are compared item by item. -/
theorem sameAll_unlabelled : (vs ws : List Value) →
    sameAll (unlabelledAll vs) (unlabelledAll ws) = sameAll vs ws
  | [], [] => rfl
  | [], _ :: _ => rfl
  | _ :: _, [] => rfl
  | v :: vs, w :: ws => by
      rw [unlabelledAll, unlabelledAll, sameAll, samePlain_unlabelled v w,
        sameAll_unlabelled vs ws, sameAll]

end

/-- **Equality does not depend on labels.** -/
theorem same_unlabelled (v w : Value) : v.unlabelled.same w.unlabelled = v.same w := by
  rw [same, ← unlabelled_plain, ← unlabelled_plain, samePlain_unlabelled, same]

/-! ### Hashes -/

/-- The hash key of a function holds the coefficients of its canonical form, and no label. -/
lemma ofFunction_unlabelled (r : RationalFunction) :
    HashKey.ofFunction r.unlabelled = HashKey.ofFunction r := by
  rw [HashKey.ofFunction, ← r.unlabelled_simplify]
  rfl

mutual

/-- **Hashes do not depend on labels.** -/
theorem hashKey?_unlabelled : (v : Value) → v.unlabelled.hashKey? = v.hashKey?
  | function r => congrArg some (ofFunction_unlabelled r)
  | tuple items => by
      rw [unlabelled, hashKey?, hashKeys?_unlabelled items, hashKey?]
  | list _ | syntheticDivision _ | rootFactorization _ => rfl
  | polynomial _ | taylor _ | decomposition _ => rfl
  | integer _ | machineInteger _ | fraction _ | rational _ | infinite | undefined => rfl
  | float _ | machineFloat _ | boolean _ | machineBoolean _ | absent | text _ | bytes _ => rfl
  | simpleFraction _ | signReport _ | expression _ => rfl

/-- The items of a tuple are hashed one by one. -/
theorem hashKeys?_unlabelled : (vs : List Value) → hashKeys? (unlabelledAll vs) = hashKeys? vs
  | [] => rfl
  | v :: vs => by
      rw [unlabelledAll, hashKeys?, hashKey?_unlabelled v, hashKeys?_unlabelled vs, hashKeys?]

end

/-- Two values have the same hash as they have without labels. -/
lemma sameHash?_unlabelled (v w : Value) :
    sameHash? v.unlabelled w.unlabelled = sameHash? v w := by
  rw [sameHash?, hashKey?_unlabelled, hashKey?_unlabelled, sameHash?]

/-! ### Sets -/

/-- A value with its hash key. -/
def withKey? (v : Value) : Option (HashKey × Value) := v.hashKey?.map fun k => (k, v)

/-- A set is made of the values with their hash keys, if all of them have one. -/
lemma distinct?_eq_foldl (vs : List Value) :
    distinct? vs = match vs.mapM withKey? with
      | none => .error .unsupportedOperands
      | some keyed => .ok (keyed.foldl (insertNew isDuplicate) []).length := rfl

/-- Without labels the values of a set keep their hash keys. -/
lemma mapM_withKey?_unlabelled (vs : List Value) :
    (vs.map unlabelled).mapM withKey?
      = (vs.mapM withKey?).map (List.map (Prod.map id unlabelled)) := by
  have hstep (v : Value) : withKey? v.unlabelled = (withKey? v).map (Prod.map id unlabelled) := by
    rw [withKey?, withKey?, hashKey?_unlabelled]
    cases v.hashKey? <;> rfl
  induction vs with
  | nil => rfl
  | cons v vs ih =>
      rw [List.map_cons, List.mapM_cons, List.mapM_cons, ih, hstep]
      cases withKey? v with
      | none => rfl
      | some keyed => cases vs.mapM withKey? <;> rfl

/-- The values that a set keeps are found one after the other: each is inserted unless it is a
duplicate of an earlier one. -/
theorem distinct?_unlabelled (vs : List Value) : distinct? (vs.map unlabelled) = distinct? vs := by
  have hduplicate : (fun a b : HashKey × Value =>
      isDuplicate (Prod.map id unlabelled a) (Prod.map id unlabelled b)) = isDuplicate := by
    funext a b
    rw [isDuplicate, isDuplicate, Prod.map_snd, Prod.map_snd, same_unlabelled]
    rfl
  -- what is kept is kept without labels as well, since the duplicates are the same
  have hfold (keyed : List (HashKey × Value)) :
      ((keyed.map (Prod.map id unlabelled)).foldl (insertNew isDuplicate) []).length
        = (keyed.foldl (insertNew isDuplicate) []).length := by
    have hmap := foldl_insertNew_map (Prod.map id unlabelled) isDuplicate [] keyed
    rw [hduplicate, List.map_nil] at hmap
    rw [hmap, List.length_map]
  rw [distinct?_eq_foldl, distinct?_eq_foldl, mapM_withKey?_unlabelled]
  cases vs.mapM withKey? with
  | none => rfl
  | some keyed => exact congrArg Except.ok (hfold keyed)

end Value

end ExactAlgebra
