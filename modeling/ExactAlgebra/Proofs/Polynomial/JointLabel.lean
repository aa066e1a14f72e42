import ExactAlgebra.Proofs.Polynomial.GreatestCommonDivisor

/-!
The labels that results inherit from two polynomials.

Sum, difference, product, quotient and remainder have the label of the first operand, or that of the
second one if the first has none, whatever the coefficients are. The greatest common divisor has no
such rule. A step of Euclid's loop makes the second member the first one and puts the joint label on
the remainder, so the labels go through a sequence of their own (`labels_iterate_euclidStep`), which
alternates from the second step on (`iterate_labelStep`). The number of steps decides which label is
left (`survivingLabel`), and with it whether the rule holds (`survivingLabel_eq_or_iff`).

Main statement: `inherited_labels`.
-/

namespace ExactAlgebra.Polynomial

/-! ### The labels in Euclid's loop -/

/-- The labels of the two members of a pair. -/
def labels (pair : Polynomial × Polynomial) : Option String × Option String :=
  (pair.1.label, pair.2.label)

/-- What a step of Euclid's algorithm does to the labels. -/
def labelStep (pair : Option String × Option String) : Option String × Option String :=
  (pair.2, pair.1.or pair.2)

lemma labels_iterate_euclidStep (n : ℕ) (p q : Polynomial) :
    labels (euclidStep^[n] (p, q)) = labelStep^[n] (p.label, q.label) := by
  have hstep : Function.Semiconj labels euclidStep labelStep := fun _ => rfl
  exact hstep.iterate_right n (p, q)

/-- After two steps both members have one of the two labels if there is one, and the next steps
exchange which operand comes first. -/
lemma iterate_labelStep (n : ℕ) (a b : Option String) :
    labelStep^[n + 2] (a, b) = if n % 2 = 0 then (a.or b, b.or a) else (b.or a, a.or b) := by
  have hjoint : ∀ c d : Option String, (c.or d).or (d.or c) = c.or d := by
    intro c d
    cases c <;> cases d <;> rfl
  induction n with
  | zero =>
      have hsecond : b.or (a.or b) = b.or a := by cases a <;> cases b <;> rfl
      exact congrArg (Prod.mk (a.or b)) hsecond
  | succ n ih =>
      rw [Nat.add_right_comm, Function.iterate_succ_apply', ih]
      rcases Nat.mod_two_eq_zero_or_one n with heven | hodd
      · rw [if_pos heven, if_neg (by omega), labelStep, hjoint]
      · rw [if_neg (by omega), if_pos (by omega), labelStep, hjoint]

/-- The label of the greatest common divisor of polynomials with the labels `a` and `b` when
Euclid's loop takes `n` steps. -/
def survivingLabel (n : ℕ) (a b : Option String) : Option String :=
  match n with
  | 0 => a
  | 1 => b
  | n + 2 => if n % 2 = 0 then a.or b else b.or a

/-- After a number of steps the label in front is the one that survives them. -/
lemma fst_iterate_labelStep (n : ℕ) (a b : Option String) :
    (labelStep^[n] (a, b)).1 = survivingLabel n a b := by
  match n with
  | 0 => rfl
  | 1 => rfl
  | n + 2 =>
      rw [iterate_labelStep, survivingLabel]
      split <;> rfl

lemma label_monic (p : Polynomial) : p.monic.label = p.label := by
  unfold monic
  split <;> rfl

/-- The label that is left is that of the first operand, or else of the second one, when the labels
agree, when a step meets a first operand without a label, and from two steps on when their number is
even or only the first operand has a label. -/
lemma survivingLabel_eq_or_iff (n : ℕ) (a b : Option String) :
    survivingLabel n a b = a.or b ↔
      a = b ∨ n = 0 ∧ a ≠ none ∨ n ≠ 0 ∧ a = none ∨ 2 ≤ n ∧ (n % 2 = 0 ∨ b = none) := by
  match n with
  | 0 => cases a <;> cases b <;> simp [survivingLabel]
  | 1 => cases a <;> cases b <;> simp [survivingLabel, eq_comm]
  | n + 2 =>
      rw [survivingLabel, Nat.add_mod_right]
      split
      · next heven => simp [heven]
      · next hodd => cases a <;> cases b <;> simp [hodd, eq_comm]

/-- **Inherited labels.** Sum, difference and product of two polynomials, and quotient and remainder
of the division by one that is not zero, have the label of the first polynomial, or that of the
second one if the first has none, whatever the coefficients are. The label of the greatest common
divisor depends on the number of steps that Euclid's loop takes: with no step it is that of the
first operand, after one step that of the second operand, and then each further step exchanges
which of the two comes first. So it follows the rule of the other operations under the stated
condition only. -/
theorem inherited_labels (p q : Polynomial) :
    (p + q).label = p.label.or q.label ∧ (p - q).label = p.label.or q.label
    ∧ (p * q).label = p.label.or q.label
    ∧ (q.isZero = false → ∃ s t, p.divMod? q = .ok (s, t)
      ∧ s.label = p.label.or q.label ∧ t.label = p.label.or q.label)
    ∧ ∃ n : ℕ, (∀ k < n, (euclidStep^[k] (p, q)).2.isZero = false)
      ∧ (euclidStep^[n] (p, q)).2.isZero = true
      ∧ (gcd p q).label = survivingLabel n p.label q.label
      ∧ ((gcd p q).label = p.label.or q.label ↔
        p.label = q.label ∨ n = 0 ∧ p.label ≠ none ∨ n ≠ 0 ∧ p.label = none
          ∨ 2 ≤ n ∧ (n % 2 = 0 ∨ q.label = none)) := by
  refine ⟨rfl, rfl, rfl, fun hq => ⟨_, _, divMod?_eq_ok p hq, rfl, rfl⟩, ?_⟩
  obtain ⟨n, -, hrunning, hend, hgcd⟩ := exists_iterate_euclidStep p q
  have hlabel : (gcd p q).label = survivingLabel n p.label q.label := by
    rw [hgcd, label_monic, ← fst_iterate_labelStep, ← labels_iterate_euclidStep]
    rfl
  exact ⟨n, hrunning, hend, hlabel, by rw [hlabel, survivingLabel_eq_or_iff]⟩

/-- A dividend without a label whose degree is below that of the divisor. -/
theorem inherited_labels_low_degree :
    let p : Polynomial := const 3 none
    let q : Polynomial := ofList [1, 0, 1] (some "t")
    q.isZero = false ∧ (p - q).label = some "t"
      ∧ ∃ s t, p.divMod? q = .ok (s, t) ∧ s.isZero = true ∧ s.label = some "t"
        ∧ t.label = some "t" := by
  intro p q
  have hq : q.isZero = false := by decide +kernel
  obtain ⟨-, hsub, -, hdivision, -⟩ := inherited_labels p q
  obtain ⟨s, t, hdiv, hs, ht⟩ := hdivision hq
  have hpair : p.divMod? q = .ok (zero (some "t"), p.withLabel (some "t")) := by decide +kernel
  cases hdiv.symm.trans hpair
  exact ⟨hq, hsub, _, _, hpair, rfl, hs, ht⟩

/-- Euclid's loop takes one step on two equal polynomials, and the label of the second one is left;
on two steps it is that of the first one. A zero polynomial hands on no label. -/
theorem inherited_labels_gcd_alternating :
    let p : Polynomial := ofList [0, 1] (some "s")
    let q : Polynomial := ofList [0, 1] (some "t")
    let r : Polynomial := ofList [1, 1] (some "t")
    p.label.or q.label = some "s" ∧ (gcd p q).label = some "t"
      ∧ (gcd p r).label = some "s"
      ∧ (gcd (p.withLabel none) (zero (some "t"))).label = none := by
  decide +kernel

end ExactAlgebra.Polynomial
