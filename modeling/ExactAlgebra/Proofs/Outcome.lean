import Mathlib.Data.List.Forall2
import ExactAlgebra.Error

/-!
Computations that may be refused.

* A sequence succeeds when all of its steps do, and otherwise it has the error of the first step
  that is refused (`bind_eq_ok_iff`, `bind_eq_error_iff`, `mapM_eq_ok_iff`).
* `failure` is the kind of an error, and `none` for a computation that returns.
-/

namespace ExactAlgebra

variable {α β γ : Type} {x : Except Error α} {f : α → Except Error β}

/-- Two steps return a result when both do. -/
lemma bind_eq_ok_iff {b : β} : (x >>= f) = .ok b ↔ ∃ a, x = .ok a ∧ f a = .ok b := by
  cases x with
  | error e => simp [bind, Except.bind]
  | ok a => simp [bind, Except.bind]

/-- Two steps fail when the first fails, or when the second fails on what the first returns. -/
lemma bind_eq_error_iff {e : Error} :
    (x >>= f) = .error e ↔ x = .error e ∨ ∃ a, x = .ok a ∧ f a = .error e := by
  cases x with
  | error e' => simp [bind, Except.bind]
  | ok a => simp [bind, Except.bind]

/-- A list of steps succeeds with the results of its steps. -/
lemma mapM_eq_ok_iff {as : List α} {bs : List β} :
    as.mapM f = .ok bs ↔ List.Forall₂ (fun a b => f a = .ok b) as bs := by
  induction as generalizing bs with
  | nil =>
      rw [List.mapM_nil, List.forall₂_nil_left_iff]
      exact ⟨fun h => by cases h; rfl, fun h => by rw [h]; rfl⟩
  | cons a as ih =>
      rw [List.mapM_cons, bind_eq_ok_iff]
      constructor
      · rintro ⟨b, hb, h⟩
        obtain ⟨bs', hbs, h⟩ := bind_eq_ok_iff.mp h
        cases h
        exact .cons hb (ih.mp hbs)
      · intro h
        obtain ⟨b, bs', hb, hbs, rfl⟩ := List.forall₂_cons_left_iff.mp h
        exact ⟨b, hb, bind_eq_ok_iff.mpr ⟨bs', ih.mpr hbs, rfl⟩⟩

/-- Steps that all succeed make a list that succeeds. -/
lemma mapM_eq_ok_of_forall {as : List α} {g : α → β} (h : ∀ a ∈ as, f a = .ok (g a)) :
    as.mapM f = .ok (as.map g) := by
  rw [mapM_eq_ok_iff, List.forall₂_map_right_iff, List.forall₂_same]
  exact h

/-- Two lists whose steps have the same outcomes, place by place, have the same outcome. -/
lemma mapM_congr_of_forall₂ {g : γ → Except Error β} {as : List α} {cs : List γ}
    (h : List.Forall₂ (fun a c => f a = g c) as cs) : as.mapM f = cs.mapM g := by
  induction h with
  | nil => rfl
  | cons hstep _ ih => rw [List.mapM_cons, List.mapM_cons, hstep, ih]

/-! ### Kinds of failure -/

/-- The kind of failure of a computation, and none when it returns. -/
def failure : Except Error α → Option ErrorKind
  | .ok _ => none
  | .error e => some e.kind

/-- A computation without a failure returns a result. -/
lemma failure_eq_none_iff : failure x = none ↔ ∃ a, x = .ok a := by
  cases x <;> simp [failure]

/-- A failure has the kind of its error. -/
lemma failure_eq_some_iff {kind : ErrorKind} :
    failure x = some kind ↔ ∃ e, x = .error e ∧ e.kind = kind := by
  cases x <;> simp [failure]

/-- A failure of the first step is that of the whole. -/
lemma failure_bind_of_failure {kind : ErrorKind} (h : failure x = some kind) :
    failure (x >>= f) = some kind := by
  obtain ⟨e, rfl, he⟩ := failure_eq_some_iff.mp h
  exact failure_eq_some_iff.mpr ⟨e, bind_eq_error_iff.mpr (.inl rfl), he⟩

/-- A list whose steps fail in one way only fails in this way when one of its steps does. -/
lemma failure_mapM_iff {kind : ErrorKind} {as : List α}
    (h : ∀ a ∈ as, failure (f a) = none ∨ failure (f a) = some kind) :
    failure (as.mapM f) = some kind ↔ ∃ a ∈ as, failure (f a) = some kind := by
  induction as with
  | nil => simp [failure, pure, Except.pure]
  | cons a as ih =>
      obtain ⟨hhead, htail⟩ := List.forall_mem_cons.mp h
      rw [List.mapM_cons, List.exists_mem_cons_iff]
      rcases hhead with hok | herror
      · obtain ⟨b, hb⟩ := failure_eq_none_iff.mp hok
        rw [← ih htail, hb]
        cases as.mapM f <;> simp [failure, bind, Except.bind, pure, Except.pure]
      · exact iff_of_true (failure_bind_of_failure herror) (.inl herror)

/-- A result is no failure. -/
lemma failure_ne_some {a : α} (h : x = .ok a) (kind : ErrorKind) : failure x ≠ some kind := by
  rw [h]
  simp [failure]

end ExactAlgebra
