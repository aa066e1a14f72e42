import ExactAlgebra.Proofs.Outcome

/-!
What is seen of a computation when some of its data is hidden.

* **Errors.** `Error.withoutTexts` drops the texts of values that an error quotes; the kind of the
  error stays (`Error.kind_withoutTexts`).
* **Computations.** `seen view x` is the view of the result of `x`, or its error without texts.
  Steps that are seen alike, with continuations that are seen alike on results of one view, are
  seen alike as a whole (`seen_bind`, `seen_bind_ok`, `seen_bind_id`).
* **Two runs.** A function that is not changed by hiding the data of its argument does not tell
  apart two arguments of one view (`eq_of_view`), and neither does a computation (`seen_congr`,
  `seen_congr₂`).
-/

namespace ExactAlgebra

/-! ### Errors -/

namespace Error

/-- The error without the texts that it quotes from values. -/
def withoutTexts : Error → Error
  | factorialArgument _ => factorialArgument ""
  | limitExceeded search _ => limitExceeded search ""
  | orderNotInteger role _ => orderNotInteger role ""
  | notCoefficients _ => notCoefficients ""
  | pole point _ => pole point ""
  | fractionalCoefficients _ => fractionalCoefficients ""
  | factorWithoutRoots _ _ => factorWithoutRoots "" ""
  | e => e

/-- An error without its texts is of the same kind. -/
lemma kind_withoutTexts (e : Error) : e.withoutTexts.kind = e.kind := by
  cases e <;> rfl

/-- Errors that differ in texts only are of one kind. -/
lemma kind_eq_of_withoutTexts {e f : Error} (h : e.withoutTexts = f.withoutTexts) :
    e.kind = f.kind := by
  rw [← e.kind_withoutTexts, h, f.kind_withoutTexts]

end Error

/-! ### Computations -/

variable {α β γ δ : Type}

/-- The view of the result of a computation, or its error without texts. -/
def seen (view : α → β) : Except Error α → Except Error β
  | .ok a => .ok (view a)
  | .error e => .error e.withoutTexts

@[simp] lemma seen_ok (view : α → β) (a : α) : seen view (.ok a) = .ok (view a) := rfl

@[simp] lemma seen_error (view : α → β) (e : Error) :
    seen view (.error e) = .error e.withoutTexts := rfl

variable {view : α → β} {view' : γ → δ}

/-- Computations that are seen alike both return, with results of one view, or both fail with
the same error up to its texts. -/
lemma seen_eq_iff {x y : Except Error α} :
    seen view x = seen view y ↔
      (∃ a b, x = .ok a ∧ y = .ok b ∧ view a = view b)
        ∨ ∃ e f, x = .error e ∧ y = .error f ∧ e.withoutTexts = f.withoutTexts := by
  cases x <;> cases y <;> simp

/-- One step after another: the steps are seen alike, and the second one on results of one
view. -/
lemma seen_bind {x y : Except Error α} {f g : α → Except Error γ} (h : seen view x = seen view y)
    (hfg : ∀ a b, view a = view b → seen view' (f a) = seen view' (g b)) :
    seen view' (x >>= f) = seen view' (y >>= g) := by
  rcases seen_eq_iff.mp h with ⟨a, b, rfl, rfl, hab⟩ | ⟨e, e', rfl, rfl, he⟩
  · exact hfg a b hab
  · exact congrArg Except.error he

/-- A step of which the whole result is seen. -/
lemma seen_bind_id {x y : Except Error α} {f g : α → Except Error γ} (h : seen id x = seen id y)
    (hfg : ∀ a, seen view' (f a) = seen view' (g a)) :
    seen view' (x >>= f) = seen view' (y >>= g) :=
  seen_bind h fun a b hab => (show a = b from hab) ▸ hfg a

/-- The same step, with continuations that are seen alike. -/
lemma seen_bind_right (x : Except Error α) {f g : α → Except Error γ}
    (hfg : ∀ a, seen view' (f a) = seen view' (g a)) :
    seen view' (x >>= f) = seen view' (x >>= g) :=
  seen_bind_id rfl hfg

/-- A function of the result of a step. -/
lemma seen_bind_ok {x y : Except Error α} {f g : α → γ} (h : seen view x = seen view y)
    (hfg : ∀ a b, view a = view b → view' (f a) = view' (g b)) :
    seen view' (do .ok (f (← x))) = seen view' (do .ok (g (← y))) :=
  seen_bind h fun a b hab => congrArg Except.ok (hfg a b hab)

/-- Two arguments that are equal once their data is hidden are not told apart by a function that
is not changed by hiding it. -/
lemma eq_of_view {hide : α → α} {F : α → γ} (hF : ∀ a, F (hide a) = F a) {a b : α}
    (h : hide a = hide b) : F a = F b := by
  rw [← hF a, h, hF b]

/-- A computation that is seen alike with and without the data of its argument. -/
lemma seen_congr {hide : α → α} {f : α → Except Error γ}
    (hf : ∀ a, seen view' (f (hide a)) = seen view' (f a)) {a b : α} (h : hide a = hide b) :
    seen view' (f a) = seen view' (f b) :=
  eq_of_view (F := fun a => seen view' (f a)) hf h

/-- The same for two arguments: what does not see the labels of either may be given any. -/
lemma seen_congr₂ {hide : α → α} {hide' : β → β} {f : α → β → Except Error γ}
    (hf : ∀ a b, seen view' (f (hide a) (hide' b)) = seen view' (f a b)) {a a' : α} {b b' : β}
    (h : hide a = hide a') (h' : hide' b = hide' b') :
    seen view' (f a b) = seen view' (f a' b') := by
  rw [← hf a b, h, h', hf a' b']

end ExactAlgebra
