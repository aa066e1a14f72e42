import ExactAlgebra.Proofs.Polynomial.Division
import ExactAlgebra.Value.Operators

/-!
The greatest common divisor of a list of polynomials.

* **Euclid's loop.** `euclidStep` is one step of the loop. Each step lowers the degree of the
  second member, so the loop ends after no more steps than the coefficients of that member
  (`exists_iterate_euclidStep`), and it ends with a combination of the two operands
  (`exists_bezout`).
* **Lists.** The divisors of `gcdAll ps` are the common divisors of the members
  (`dvd_gcdAll_iff`), it is zero or monic (`isNormal_gcdAll`), and it is a combination of the
  members (`exists_combination`). The first two determine it, so two lists with the same common
  divisors have the same greatest one (`coefficients_gcdAll_congr`).

Main statement: `gcdAll_greatest`.
-/

open Polynomial

namespace ExactAlgebra

namespace Polynomial

/-! ### Divisibility -/

/-- One polynomial is a multiple of the other. -/
def Divides (d p : Polynomial) : Prop := ∃ q : Polynomial, (q * d == p) = true

/-- Division without remainder is divisibility in `ℚ[X]`. -/
lemma divides_iff_dvd {d p : Polynomial} : d.Divides p ↔ d.toPoly ∣ p.toPoly := by
  constructor
  · rintro ⟨q, h⟩
    rw [beq_iff_toPoly, toPoly_mul] at h
    exact ⟨q.toPoly, by rw [← h, mul_comm]⟩
  · intro h
    refine ⟨p / d, ?_⟩
    rw [beq_iff_toPoly, toPoly_mul]
    cases hd : d.isZero with
    | true =>
        rw [toPoly_eq_zero_iff.mpr hd] at h ⊢
        rw [mul_zero, zero_dvd_iff.mp h]
    | false => exact toPoly_div_mul_cancel hd h

/-- Division by a divisor leaves no remainder. -/
lemma divides_iff_divMod? {d p : Polynomial} (hd : d.isZero = false) :
    d.Divides p ↔ ∃ q r, p.divMod? d = .ok (q, r) ∧ r.isZero = true := by
  have hmod : (p % d).isZero = true ↔ d.toPoly ∣ p.toPoly := by
    rw [← toPoly_eq_zero_iff, toPoly_mod p hd, EuclideanDomain.mod_eq_zero]
  rw [divides_iff_dvd, ← hmod, divMod?_eq_ok p hd]
  constructor
  · exact fun h => ⟨_, _, rfl, h⟩
  · rintro ⟨q, r, h, hr⟩
    cases h
    exact hr

/-- Factors from the field are invisible to divisibility. -/
lemma dvd_scale_iff {d : ℚ[X]} (p : Polynomial) {c : ℚ} (hc : c ≠ 0) :
    d ∣ (p.scale c).toPoly ↔ d ∣ p.toPoly := by
  rw [toPoly_scale]
  exact (isUnit_C.mpr hc.isUnit).dvd_mul_left

/-! ### Euclid's loop -/

/-- One step of Euclid's algorithm: the second member of a pair, and the remainder of the first
one by it. -/
def euclidStep (pair : Polynomial × Polynomial) : Polynomial × Polynomial :=
  (pair.2, pair.1 % pair.2)

/-- The loop of Euclid's algorithm runs while the second member is not zero. It ends, and the
greatest common divisor is the monic multiple of the first member at its end. -/
lemma exists_iterate_euclidStep (p q : Polynomial) :
    ∃ n ≤ q.ascending.length, (∀ k < n, (euclidStep^[k] (p, q)).2.isZero = false)
      ∧ (euclidStep^[n] (p, q)).2.isZero = true
      ∧ gcd p q = (euclidStep^[n] (p, q)).1.monic := by
  fun_induction gcd p q with
  | case1 p q hq => exact ⟨0, Nat.zero_le _, fun k hk => absurd hk (Nat.not_lt_zero k), hq, rfl⟩
  | case2 p q hq ih =>
      rw [Bool.not_eq_true] at hq
      have hlt := length_mod_lt p hq
      obtain ⟨n, hn, hbefore, hend, hgcd⟩ := ih
      -- one step more than the run from the next pair
      refine ⟨n + 1, by omega, fun k hk => ?_, hend, hgcd⟩
      cases k with
      | zero => exact hq
      | succ k => exact hbefore k (by omega)

/-- The greatest common divisor is a combination of the operands: the remainder of a step is
one, and a combination of combinations is a combination. -/
lemma exists_bezout (p q : Polynomial) :
    ∃ u v : Polynomial, u.toPoly * p.toPoly + v.toPoly * q.toPoly = (gcd p q).toPoly := by
  fun_induction gcd p q with
  | case1 p q hq =>
      refine ⟨const p.toPoly.leadingCoeff⁻¹ none, zero none, ?_⟩
      rw [toPoly_const, toPoly_zero, zero_mul, add_zero]
      cases hp : p.isZero with
      | true => rw [monic, if_pos hp, toPoly_eq_zero_iff.mpr hp, mul_zero]
      | false => rw [toPoly_monic hp]
  | case2 p q hq ih =>
      obtain ⟨u, v, huv⟩ := ih
      have hdiv := toPoly_div_add_mod p (Bool.not_eq_true _ ▸ hq)
      -- the remainder is the dividend less a multiple of the divisor
      refine ⟨v, u - v * (p / q), ?_⟩
      rw [← huv, toPoly_sub, toPoly_mul]
      linear_combination -v.toPoly * hdiv

/-! ### Normal form -/

/-- Zero or monic: of all multiples by a constant, one is in this form. -/
def IsNormal (p : Polynomial) : Prop := p.isZero = false → p.isMonic = true

lemma isMonic_iff {p : Polynomial} : p.isMonic = true ↔ p.toPoly.Monic := by
  rw [isMonic, decide_eq_true_eq, leadingCoefficient_eq, Monic]

/-- The monic polynomial is normal, and zero stays zero. -/
lemma isNormal_monic (p : Polynomial) : p.monic.IsNormal := by
  intro h
  cases hp : p.isZero with
  | true =>
      rw [monic, if_pos hp, hp] at h
      cases h
  | false => exact isMonic_iff.mpr (monic_toPoly_monic hp)

/-- The greatest common divisor of two is normal. -/
lemma isNormal_gcd (p q : Polynomial) : (gcd p q).IsNormal := by
  obtain ⟨n, _, _, _, hgcd⟩ := exists_iterate_euclidStep p q
  rw [hgcd]
  exact isNormal_monic _

/-- Polynomials in normal form with the same divisors have the same coefficients. -/
lemma IsNormal.coefficients_eq {p q : Polynomial} (hp : p.IsNormal) (hq : q.IsNormal)
    (h : ∀ d, d ∣ p.toPoly ↔ d ∣ q.toPoly) : p.coefficients = q.coefficients := by
  have hpq : p.toPoly ∣ q.toPoly := (h _).mp dvd_rfl
  have hqp : q.toPoly ∣ p.toPoly := (h _).mpr dvd_rfl
  rw [coefficients_eq_iff]
  cases hp0 : p.isZero with
  | true =>
      rw [toPoly_eq_zero_iff.mpr hp0] at hpq ⊢
      exact (zero_dvd_iff.mp hpq).symm
  | false =>
      have hp0' := toPoly_ne_zero_iff.mpr hp0
      have hq0 : q.isZero = false := toPoly_ne_zero_iff.mp (ne_zero_of_dvd_ne_zero hp0' hqp)
      exact eq_of_monic_of_associated (isMonic_iff.mp (hp hp0)) (isMonic_iff.mp (hq hq0))
        (associated_of_dvd_dvd hpq hqp)

/-! ### Lists -/

/-- A list is reduced from the left. -/
lemma gcdAll_concat (ps : List Polynomial) (p : Polynomial) :
    gcdAll (ps ++ [p]) = gcd (gcdAll ps) p := by
  rw [gcdAll, List.foldl_concat, gcdAll]

/-- The greatest common divisor of a list is normal, also that of the empty one. -/
lemma isNormal_gcdAll (ps : List Polynomial) : (gcdAll ps).IsNormal := by
  induction ps using List.reverseRecOn with
  | nil =>
      intro h
      cases h
  | append_singleton ps p _ =>
      rw [gcdAll_concat]
      exact isNormal_gcd _ _

/-- The divisors of the greatest common divisor of a list are the common divisors of its
members. -/
lemma dvd_gcdAll_iff {d : ℚ[X]} (ps : List Polynomial) :
    d ∣ (gcdAll ps).toPoly ↔ ∀ p ∈ ps, d ∣ p.toPoly := by
  induction ps using List.reverseRecOn with
  | nil => exact ⟨fun _ p hp => absurd hp List.not_mem_nil, fun _ => dvd_zero d⟩
  | append_singleton ps p ih =>
      rw [gcdAll_concat, dvd_gcd_iff, ih]
      simp [or_imp, forall_and]

/-- The greatest common divisor is zero only where all members are. -/
lemma isZero_gcdAll_iff (ps : List Polynomial) :
    (gcdAll ps).isZero = true ↔ ∀ p ∈ ps, p.isZero = true := by
  simp only [← toPoly_eq_zero_iff, ← zero_dvd_iff]
  exact dvd_gcdAll_iff ps

/-- Lists with the same common divisors have the same greatest one. -/
lemma coefficients_gcdAll_congr {ps qs : List Polynomial}
    (h : ∀ d : ℚ[X], (∀ p ∈ ps, d ∣ p.toPoly) ↔ ∀ q ∈ qs, d ∣ q.toPoly) :
    (gcdAll ps).coefficients = (gcdAll qs).coefficients :=
  (isNormal_gcdAll ps).coefficients_eq (isNormal_gcdAll qs)
    fun d => by rw [dvd_gcdAll_iff, dvd_gcdAll_iff, h]

/-- The sum of the products of the members of two lists. -/
def combination (us ps : List Polynomial) : Polynomial :=
  (List.zipWith (· * ·) us ps).foldr (· + ·) (zero none)

lemma toPoly_combination_cons (u p : Polynomial) (us ps : List Polynomial) :
    (combination (u :: us) (p :: ps)).toPoly
      = u.toPoly * p.toPoly + (combination us ps).toPoly := by
  rw [combination, List.zipWith_cons_cons, List.foldr_cons, toPoly_add, toPoly_mul, combination]

/-- The running greatest common divisor is a combination of its start and the members. -/
lemma exists_combination_foldl (ps : List Polynomial) (g : Polynomial) :
    ∃ (w : Polynomial) (us : List Polynomial), us.length = ps.length
      ∧ w.toPoly * g.toPoly + (combination us ps).toPoly = (ps.foldl gcd g).toPoly := by
  induction ps generalizing g with
  | nil => exact ⟨one none, [], rfl, by simp [combination]⟩
  | cons p ps ih =>
      obtain ⟨w, us, hlen, hsum⟩ := ih (gcd g p)
      obtain ⟨u, v, huv⟩ := exists_bezout g p
      refine ⟨w * u, w * v :: us, by simp [hlen], ?_⟩
      rw [List.foldl_cons, ← hsum, ← huv, toPoly_combination_cons, toPoly_mul, toPoly_mul]
      ring

/-- The greatest common divisor of a list is a combination of its members. -/
lemma exists_combination (ps : List Polynomial) :
    ∃ us : List Polynomial, us.length = ps.length ∧ (combination us ps == gcdAll ps) = true := by
  obtain ⟨w, us, hlen, hsum⟩ := exists_combination_foldl ps (zero none)
  refine ⟨us, hlen, ?_⟩
  rw [beq_iff_toPoly, gcdAll, ← hsum, toPoly_zero, mul_zero, zero_add]

/-- No step of the operation of the calculator fails on a polynomial. -/
lemma foldlM_polynomialGcd?_map (ps : List Polynomial) (g : Polynomial) :
    (ps.map Value.polynomial).foldlM Value.polynomialGcd? g = .ok (ps.foldl gcd g) := by
  induction ps generalizing g with
  | nil => rfl
  | cons p ps ih => exact ih (gcd g p)

/-- On polynomials the operation of the calculator is the greatest common divisor of a list. -/
lemma polynomialGcdAll?_map (ps : List Polynomial) :
    Value.polynomialGcdAll? (ps.map Value.polynomial) = .ok (gcdAll ps) :=
  foldlM_polynomialGcd?_map ps (zero none)

/-- **The greatest common divisor of a list.** Euclid's loop on two polynomials ends. For every
list the result is zero exactly when all members are, and monic otherwise; it divides every
member, every common divisor divides it, and it is a combination of the members. To divide, for
a polynomial that is not zero, is to leave no remainder. The coefficients of the result do not
depend on the order of the list, on members being grouped, or on nonzero factors of the
members. -/
theorem gcdAll_greatest :
    (∀ p q : Polynomial, ∃ n : ℕ, (n : ℤ) ≤ q.degree + 1
      ∧ (∀ k < n, (euclidStep^[k] (p, q)).2.isZero = false)
      ∧ (euclidStep^[n] (p, q)).2.isZero = true
      ∧ gcd p q = (euclidStep^[n] (p, q)).1.monic)
    ∧ (∀ ps : List Polynomial,
      Value.polynomialGcdAll? (ps.map Value.polynomial) = .ok (gcdAll ps)
      ∧ ((gcdAll ps).isZero = true ↔ ∀ p ∈ ps, p.isZero = true)
      ∧ ((gcdAll ps).isZero = false → (gcdAll ps).isMonic = true)
      ∧ (∀ p ∈ ps, (gcdAll ps).Divides p)
      ∧ (∀ d : Polynomial, (∀ p ∈ ps, d.Divides p) → d.Divides (gcdAll ps))
      ∧ ∃ us : List Polynomial, us.length = ps.length
        ∧ (combination us ps == gcdAll ps) = true)
    ∧ (∀ d p : Polynomial, d.isZero = false →
      (d.Divides p ↔ ∃ q r, p.divMod? d = .ok (q, r) ∧ r.isZero = true))
    ∧ (∀ ps qs : List Polynomial, ps.Perm qs →
      (gcdAll ps).coefficients = (gcdAll qs).coefficients)
    ∧ (∀ before group after : List Polynomial,
      (gcdAll (before ++ gcdAll group :: after)).coefficients
        = (gcdAll (before ++ group ++ after)).coefficients)
    ∧ (∀ p q : Polynomial, (gcd p q).coefficients = (gcd q p).coefficients)
    ∧ ∀ (before : List Polynomial) (p : Polynomial) (after : List Polynomial) (c : ℚ), c ≠ 0 →
      (gcdAll (before ++ p.scale c :: after)).coefficients
        = (gcdAll (before ++ p :: after)).coefficients := by
  refine ⟨fun p q => ?_, fun ps => ⟨polynomialGcdAll?_map ps, isZero_gcdAll_iff ps,
    isNormal_gcdAll ps, fun p hp => ?_, fun d hd => ?_,
    exists_combination ps⟩, fun d p => divides_iff_divMod?, fun ps qs h => ?_,
    fun before group after => ?_, fun p q => ?_, fun before p after c hc => ?_⟩
  · obtain ⟨n, hn, hloop⟩ := exists_iterate_euclidStep p q
    exact ⟨n, by rw [degree]; omega, hloop⟩
  · exact divides_iff_dvd.mpr ((dvd_gcdAll_iff ps).mp dvd_rfl p hp)
  · rw [divides_iff_dvd, dvd_gcdAll_iff]
    exact fun p hp => divides_iff_dvd.mp (hd p hp)
  · exact coefficients_gcdAll_congr fun d => by simp only [h.mem_iff]
  · refine coefficients_gcdAll_congr fun d => ?_
    simp only [List.forall_mem_append, List.forall_mem_cons, dvd_gcdAll_iff, and_assoc]
  · exact (isNormal_gcd p q).coefficients_eq (isNormal_gcd q p)
      fun d => by rw [dvd_gcd_iff, dvd_gcd_iff, and_comm]
  · refine coefficients_gcdAll_congr fun d => ?_
    simp only [List.forall_mem_append, List.forall_mem_cons, dvd_scale_iff p hc]

/-- A list with a zero, a constant factor and a repetition: the greatest common divisor of
`0`, `2 x² - 2`, `x² - 2 x + 1` and `x² - 2 x + 1` is `x - 1`. -/
theorem gcdAll_greatest_repeated :
    let square : Polynomial := ofList [1, -2, 1] none
    let ps : List Polynomial := [zero none, ofList [-2, 0, 2] none, square, square]
    gcdAll ps = linear 1 none ∧ (gcdAll ps).isMonic = true ∧ (gcdAll ps).Divides square
      ∧ (∃ q r, square.divMod? (gcdAll ps) = .ok (q, r) ∧ r.isZero = true)
      ∧ (linear 1 none).Divides (gcdAll ps)
      ∧ (gcdAll ps.reverse).coefficients = (gcdAll ps).coefficients
      ∧ (3/2 : ℚ) ≠ 0
      ∧ (gcdAll [square.scale (3/2), square]).coefficients
        = (gcdAll [square, square]).coefficients := by
  intro square ps
  have hgcd : gcdAll ps = linear 1 none := by decide +kernel
  have hzero : (gcdAll ps).isZero = false := by rw [hgcd]; decide +kernel
  have hc : (3/2 : ℚ) ≠ 0 := by decide +kernel
  have hmem : square ∈ ps := by simp [ps]
  obtain ⟨_, hlist, hdivMod, hperm, _, _, hscale⟩ := gcdAll_greatest
  have hdvd := (hlist ps).2.2.2.1 square hmem
  have hcommon : ∀ p ∈ ps, (linear 1 none).Divides p := hgcd ▸ (hlist ps).2.2.2.1
  exact ⟨hgcd, (hlist ps).2.2.1 hzero, hdvd, (hdivMod _ _ hzero).mp hdvd,
    (hlist ps).2.2.2.2.1 _ hcommon, hperm _ _ ps.reverse_perm, hc, hscale [] square [square] _ hc⟩

end Polynomial

end ExactAlgebra
