import ExactAlgebra.Proofs.Roots.Multiplicity

/-!
The limit on the synthetic divisions that count multiplicities is exact.

* **One root.** `divisionsAt` is the number of divisions that a root takes: its multiplicity,
  and one more that leaves a remainder, unless a constant is left. `divideOut_steps`: the
  repeated division makes them and is refused exactly when the limit does not admit them.
* **All roots.** `divisionsOver` adds them up along a list of distinct roots
  (`divisionsOver_cons`). Before the last root something that is not constant is left, so
  that the division that is saved is saved once. `divideOutAll_steps` is the run.
* **The count.** `divisionCount` is the number for a polynomial, and `CountWithin` says that
  search and count are within their limits. Then the factorization is returned
  (`exists_isFactorization`), and otherwise a limit is reported
  (`failure_rootMultiplicities`).
* **The result.** Two runs under different limits take the same divisions, so that the limit
  decides whether a factorization is returned and not which one (`rootMultiplicities_limit`). The
  divisions can be read off it (`divisionCount_eq_divisions`).

Main statement: `multiplicity_limit_exact`.
-/

open Polynomial

namespace ExactAlgebra

/-- Whether a limit admits `n` more divisions after `done` ones. A limit is compared before a
division is made, so that every limit admits no division at all. -/
def Admits (limit : ℤ) (done n : ℕ) : Prop := n = 0 ∨ (done + n : ℤ) ≤ limit

/-- Divisions are admitted one part after the other. -/
lemma admits_add {limit : ℤ} {done n : ℕ} (h : Admits limit done n) (k : ℕ) :
    Admits limit done (n + k) ↔ Admits limit (done + n) k := by
  unfold Admits at *
  omega

lemma not_admits_add {limit : ℤ} {done n : ℕ} (h : ¬Admits limit done n) (k : ℕ) :
    ¬Admits limit done (n + k) := by
  unfold Admits at *
  omega

/-! ### One root -/

/-- The divisions by `x - r` that take the root `r` out of a polynomial. -/
noncomputable def divisionsAt (p : ℚ[X]) (r : ℚ) : ℕ :=
  p.rootMultiplicity r + if p.rootMultiplicity r = p.natDegree then 0 else 1

lemma divisionsAt_of_natDegree_eq_zero {p : ℚ[X]} (hp : p.natDegree = 0) (r : ℚ) :
    divisionsAt p r = 0 := by
  rw [eq_C_of_natDegree_eq_zero hp, divisionsAt, rootMultiplicity_C, natDegree_C, if_pos rfl]

lemma divisionsAt_pos {p : ℚ[X]} (hp : p.natDegree ≠ 0) (r : ℚ) : 0 < divisionsAt p r := by
  rw [divisionsAt]
  split <;> omega

lemma divisionsAt_of_not_isRoot {p : ℚ[X]} {r : ℚ} (hp : p.natDegree ≠ 0) (hr : ¬p.IsRoot r) :
    divisionsAt p r = 1 := by
  rw [divisionsAt, rootMultiplicity_eq_zero hr, if_neg hp.symm]

/-- A division without remainder is one of the divisions that are made. -/
lemma divisionsAt_X_sub_C_mul {q : ℚ[X]} (hq : q ≠ 0) (r : ℚ) :
    divisionsAt ((X - C r) * q) r = divisionsAt q r + 1 := by
  have hmul : (X - C r) * q ≠ 0 := mul_ne_zero (X_sub_C_ne_zero r) hq
  rw [divisionsAt, divisionsAt, rootMultiplicity_mul hmul, rootMultiplicity_X_sub_C_self,
    natDegree_mul (X_sub_C_ne_zero r) hq, natDegree_X_sub_C]
  split <;> split <;> omega

namespace Polynomial

/-- The repeated division by `x - r` returns after its divisions when the limit admits them, and
is refused otherwise. -/
lemma divideOut_steps {p : Polynomial} (hp : p.isZero = false) (limit : ℤ) (r : ℚ)
    (steps m : ℕ) :
    (∃ state, divideOut limit r p steps m = .ok state
        ∧ state.steps = steps + divisionsAt p.toPoly r
        ∧ Admits limit steps (divisionsAt p.toPoly r))
      ∨ ∃ e, divideOut limit r p steps m = .error e
        ∧ ¬Admits limit steps (divisionsAt p.toPoly r) := by
  fun_induction divideOut limit r p steps m with
  | case1 p steps m hdeg =>
      rw [divisionsAt_of_natDegree_eq_zero (degree_lt_one_iff.mp hdeg)]
      exact .inl ⟨_, rfl, rfl, .inl rfl⟩
  | case2 p steps m hdeg hlimit =>
      -- one division at least has to be made, and it is not admitted
      have hpos := divisionsAt_pos (mt degree_lt_one_iff.mpr hdeg) r
      refine .inr ⟨_, rfl, ?_⟩
      unfold Admits
      omega
  | case3 p steps m hdeg hlimit division hrem =>
      have hfirst : Admits limit steps 1 := .inr (by push_cast at hlimit; omega)
      rw [remainder_syntheticDivide, eval_eq] at hrem
      rw [divisionsAt_of_not_isRoot (mt degree_lt_one_iff.mpr hdeg) hrem]
      exact .inl ⟨_, rfl, rfl, hfirst⟩
  | case4 p steps m hdeg hlimit division hrem ih =>
      have hfirst : Admits limit steps 1 := .inr (by push_cast at hlimit; omega)
      obtain ⟨hdiv, hq⟩ := quotient_of_remainder_eq_zero hp (not_not.mp hrem)
      -- this division is admitted, so the limit decides about those that follow
      rw [hdiv, divisionsAt_X_sub_C_mul (toPoly_ne_zero_iff.mpr hq),
        Nat.add_comm (divisionsAt _ r) 1, admits_add hfirst, ← Nat.add_assoc]
      exact ih hq

end Polynomial

/-! ### All roots -/

/-- The divisions that take the roots of a list out of a polynomial, one after the other. -/
noncomputable def divisionsOver (p : ℚ[X]) (rs : List ℚ) : ℕ :=
  (rs.map p.rootMultiplicity).sum + rs.length
    - if (rs.map p.rootMultiplicity).sum = p.natDegree then 1 else 0

@[simp] lemma divisionsOver_nil (p : ℚ[X]) : divisionsOver p [] = 0 := by
  simp [divisionsOver]

/-- A root other than `r` is not taken out with `r`. -/
lemma isRoot_of_pow_mul {q : ℚ[X]} {r s : ℚ} {m : ℕ} (hsr : s ≠ r)
    (h : ((X - C r) ^ m * q).IsRoot s) : q.IsRoot s := by
  rw [IsRoot.def, eval_mul, eval_pow, eval_sub, eval_X, eval_C] at h
  exact (mul_eq_zero.mp h).resolve_left (pow_ne_zero m (sub_ne_zero.mpr hsr))

/-- The divisions for the first root, and those for the others on what it leaves. -/
lemma divisionsOver_cons {q : ℚ[X]} (hq : q ≠ 0) {r : ℚ} {m : ℕ} {rs : List ℚ} (hr : ¬q.IsRoot r)
    (hrs : r ∉ rs) (hroots : ∀ s ∈ rs, q.IsRoot s) :
    divisionsOver ((X - C r) ^ m * q) (r :: rs)
      = divisionsAt ((X - C r) ^ m * q) r + divisionsOver q rs := by
  -- the other roots keep their multiplicities
  have hlater : rs.map ((X - C r) ^ m * q).rootMultiplicity = rs.map q.rootMultiplicity :=
    List.map_congr_left fun s hs =>
      rootMultiplicity_pow_mul_of_ne m hq (ne_of_mem_of_not_mem hs hrs)
  have hdeg : ((X - C r) ^ m * q).natDegree = m + q.natDegree := by
    rw [natDegree_mul (pow_ne_zero m (X_sub_C_ne_zero r)) hq, natDegree_pow, natDegree_X_sub_C,
      mul_one]
  rw [divisionsOver, divisionsOver, divisionsAt, List.map_cons, List.sum_cons, List.length_cons,
    hlater, hdeg, rootMultiplicity_pow_mul m hr]
  cases rs with
  | nil =>
      simp only [List.map_nil, List.sum_nil, List.length_nil]
      split <;> split <;> omega
  | cons s rs =>
      -- a root is left, so the rest is not constant
      have hpos : 0 < q.natDegree := natDegree_pos_iff_degree_pos.mpr
        (degree_pos_of_root hq (hroots s List.mem_cons_self))
      rw [if_neg (by omega : ¬m = m + q.natDegree), List.length_cons]
      split <;> split <;> omega

/-- The first root alone takes no more divisions than all of them. -/
lemma exists_divisionsOver_eq_add {p : ℚ[X]} (hp : p ≠ 0) {r : ℚ} {rs : List ℚ} (hrs : r ∉ rs)
    (hroots : ∀ s ∈ rs, p.IsRoot s) :
    ∃ n, divisionsOver p (r :: rs) = divisionsAt p r + n := by
  obtain ⟨q, hmul, hroot⟩ := exists_eq_pow_rootMultiplicity_mul hp r
  have hq : q ≠ 0 := right_ne_zero_of_mul (hmul ▸ hp)
  have hlater : ∀ s ∈ rs, q.IsRoot s := fun s hs =>
    isRoot_of_pow_mul (ne_of_mem_of_not_mem hs hrs) (hmul ▸ hroots s hs)
  have hcons := divisionsOver_cons (m := p.rootMultiplicity r) hq hroot hrs hlater
  rw [← hmul] at hcons
  exact ⟨divisionsOver q rs, hcons⟩

namespace Polynomial

/-- Distinct roots are divided out when the limit admits their divisions, and the run is refused
otherwise. -/
lemma divideOutAll_steps {rs : List ℚ} (hrs : rs.Nodup) {p : Polynomial} (hp : p.isZero = false)
    (hroots : ∀ r ∈ rs, p.toPoly.IsRoot r) (limit : ℤ) (steps : ℕ) :
    (∃ f, divideOutAll limit rs p steps = .ok f
        ∧ Admits limit steps (divisionsOver p.toPoly rs))
      ∨ ∃ e, divideOutAll limit rs p steps = .error e
        ∧ ¬Admits limit steps (divisionsOver p.toPoly rs) := by
  induction rs generalizing p steps with
  | nil => exact .inl ⟨_, rfl, .inl (divisionsOver_nil _)⟩
  | cons r rs ih =>
      obtain ⟨hr, hrs⟩ := List.nodup_cons.mp hrs
      rw [List.forall_mem_cons] at hroots
      rw [divideOutAll]
      rcases divideOut_steps hp limit r steps 0 with
        ⟨state, hstate, hsteps, hadmits⟩ | ⟨e, he, hrefused⟩
      · obtain ⟨k, -, hmul, hroot⟩ := divideOut_spec hp hstate
        have hrest := isZero_of_toPoly_eq_mul hp hmul
        have hlater : ∀ s ∈ rs, state.rest.toPoly.IsRoot s := fun s hs =>
          isRoot_of_pow_mul (ne_of_mem_of_not_mem hs hr) (hmul ▸ hroots.2 s hs)
        -- the first root has its divisions, and the rest of the list has those of what is left
        have hcons : divisionsOver p.toPoly (r :: rs)
            = divisionsAt p.toPoly r + divisionsOver state.rest.toPoly rs := by
          rw [hmul]
          exact divisionsOver_cons (toPoly_ne_zero_iff.mpr hrest) hroot hr hlater
        rw [hcons, admits_add hadmits, ← hsteps]
        rcases ih hrs hrest hlater state.steps with ⟨f, hf, hrest⟩ | ⟨e, he, hrest⟩
        · exact .inl ⟨_, bind_eq_ok_iff.mpr ⟨state, hstate, bind_eq_ok_iff.mpr ⟨f, hf, rfl⟩⟩,
            hrest⟩
        · exact .inr ⟨e, bind_eq_error_iff.mpr (.inr ⟨state, hstate,
            bind_eq_error_iff.mpr (.inl he)⟩), hrest⟩
      · -- refused at the first root: the list needs no fewer divisions
        obtain ⟨n, hn⟩ := exists_divisionsOver_eq_add (toPoly_ne_zero_iff.mpr hp) hr hroots.2
        rw [hn]
        exact .inr ⟨e, bind_eq_error_iff.mpr (.inl he), not_admits_add hrefused n⟩

/-! ### The count -/

/-- The synthetic divisions that count the multiplicities of the rational roots of a
polynomial: one for every root with its multiplicity, and one more for every root, except that
the last root is not tried again when a constant is left. -/
noncomputable def divisionCount (p : Polynomial) : ℕ :=
  p.toPoly.roots.card + p.toPoly.roots.toFinset.card
    - if p.toPoly.roots.card = p.toPoly.natDegree then 1 else 0

/-- What the limits of a count demand: the search for the roots is within its own limits, and
the synthetic divisions, if there are any, are no more than the limit. -/
def CountWithin (p : Polynomial) (limit : ℤ) : Prop :=
  SearchWithin p.searchForm defaultRootCandidates
    ∧ (p.divisionCount = 0 ∨ (p.divisionCount : ℤ) ≤ limit)

/-- The multiplicities over the distinct roots add up to the number of all roots. -/
lemma sum_map_rootMultiplicity {p : ℚ[X]} (hp : p ≠ 0) {rs : List ℚ} (hrs : rs.Nodup)
    (hmem : ∀ r, r ∈ rs ↔ p.IsRoot r) :
    (rs.map p.rootMultiplicity).sum = p.roots.card ∧ rs.length = p.roots.toFinset.card := by
  have hfinset : rs.toFinset = p.roots.toFinset := by
    ext r
    rw [List.mem_toFinset, Multiset.mem_toFinset, hmem, mem_roots hp]
  constructor
  · rw [← List.sum_toFinset _ hrs, hfinset]
    simp only [← count_roots]
    exact Multiset.toFinset_sum_count_eq _
  · rw [← hfinset, List.toFinset_card_of_nodup hrs]

/-- The divisions along all roots are those of the count. -/
lemma divisionsOver_eq_divisionCount {p : Polynomial} (hp : p.isZero = false) {rs : List ℚ}
    (hrs : rs.Nodup) (hmem : ∀ r, r ∈ rs ↔ p.toPoly.IsRoot r) :
    divisionsOver p.toPoly rs = p.divisionCount := by
  obtain ⟨hsum, hlen⟩ := sum_map_rootMultiplicity (toPoly_ne_zero_iff.mpr hp) hrs hmem
  rw [divisionsOver, divisionCount, hsum, hlen]

/-- The limits of a count do not depend on the label. -/
lemma countWithin_congr {p q : Polynomial} (h : p.toPoly = q.toPoly) (limit : ℤ) :
    p.CountWithin limit ↔ q.CountWithin limit := by
  rw [CountWithin, CountWithin, searchWithin_congr h, divisionCount, divisionCount, h]

/-- The divisions that lead to a factorization. -/
lemma divisionCount_eq_of_isFactorization {p : Polynomial} {f : RootFactorization}
    (hf : IsFactorization p.toPoly f) :
    p.divisionCount
      = (f.roots.map Prod.snd).sum + f.roots.length - if f.cofactor.degree < 1 then 1 else 0 := by
  obtain ⟨hsum, hlen⟩ := sum_map_rootMultiplicity hf.ne_zero hf.nodup hf.mem_roots_iff
  have hmult : (f.roots.map Prod.fst).map p.toPoly.rootMultiplicity = f.roots.map Prod.snd := by
    rw [List.map_map]
    exact List.map_congr_left fun rm hrm => ((hf.mem_iff rm.1 rm.2).mp hrm).2.symm
  have hsplits : p.toPoly.roots.card = p.toPoly.natDegree ↔ f.cofactor.degree < 1 := by
    rw [← hf.splits_iff, splits_iff_card_roots]
  rw [hmult] at hsum
  rw [List.length_map] at hlen
  rw [divisionCount, hsum, hlen]
  simp only [hsplits]

/-- A count on a nonzero polynomial returns exactly within its limits. -/
lemma rootMultiplicities_eq_ok_iff {p : Polynomial} (hp : p.isZero = false) {limit : ℤ} :
    (∃ f, p.rootMultiplicities limit = .ok f) ↔ p.CountWithin limit := by
  by_cases hsearch : SearchWithin p.searchForm defaultRootCandidates
  · obtain ⟨rs, hrs, hasc, hmem⟩ := rationalRoots_eq_ok hp hsearch
    have hnodup : rs.Nodup := hasc.imp ne_of_lt
    have hcount := divisionsOver_eq_divisionCount hp hnodup hmem
    -- the search is made under its own limit, so that only the divisions count
    have hwithin : p.CountWithin limit ↔ Admits limit 0 (divisionsOver p.toPoly rs) := by
      rw [CountWithin, Admits, hcount, and_iff_right hsearch, Nat.cast_zero, zero_add]
    rw [hwithin, rootMultiplicities, hrs]
    rcases divideOutAll_steps hnodup hp (fun r hr => (hmem r).mp hr) limit 0 with
      ⟨f, hf, hadmits⟩ | ⟨e, he, hrefused⟩
    · exact iff_of_true ⟨f, hf⟩ hadmits
    · refine iff_of_false (fun ⟨f, hf⟩ => ?_) hrefused
      change divideOutAll limit rs p 0 = .ok f at hf
      rw [he] at hf
      cases hf
  · obtain ⟨e, he, -⟩ := rationalRoots_eq_error hp hsearch
    refine iff_of_false (fun ⟨f, hf⟩ => ?_) fun h => hsearch h.1
    rw [rootMultiplicities, he] at hf
    cases hf

/-- Within its limits a count factorizes the polynomial. -/
lemma exists_isFactorization {p : Polynomial} (hp : p.isZero = false) {limit : ℤ}
    (h : p.CountWithin limit) :
    ∃ f, p.rootMultiplicities limit = .ok f ∧ IsFactorization p.toPoly f := by
  obtain ⟨f, hf⟩ := (rootMultiplicities_eq_ok_iff hp).mpr h
  exact ⟨f, hf, rootMultiplicities_isFactorization hf⟩

/-- Beyond its limits a count is refused as a limit exceeded. -/
lemma failure_rootMultiplicities {p : Polynomial} (hp : p.isZero = false) {limit : ℤ}
    (h : ¬p.CountWithin limit) : failure (p.rootMultiplicities limit) = some .limitExceeded := by
  rw [← rootMultiplicities_eq_ok_iff hp] at h
  cases hcount : p.rootMultiplicities limit with
  | ok f => exact absurd ⟨f, hcount⟩ h
  | error e => exact failure_eq_some_iff.mpr ⟨e, rfl, kind_rootMultiplicities hp hcount⟩

/-! ### The result -/

/-- A run that returns goes on after its first division as that division says, whatever the limit
is. -/
lemma divideOut_first {limit : ℤ} {r : ℚ} {p : Polynomial} {steps m : ℕ} {state : Deflation}
    (hdeg : ¬p.degree < 1) (h : divideOut limit r p steps m = .ok state) :
    (if (p.syntheticDivide r).remainder ≠ 0 then Except.ok ⟨p, steps + 1, m⟩
      else divideOut limit r (p.syntheticDivide r).quotient (steps + 1) (m + 1)) = .ok state := by
  rw [divideOut, dif_neg hdeg] at h
  split at h
  · cases h
  · exact h

/-- What the repeated division comes to does not depend on the limit that admits it. -/
lemma divideOut_limit {limit limit' : ℤ} {r : ℚ} {p : Polynomial} {steps m : ℕ}
    {state state' : Deflation} (h : divideOut limit r p steps m = .ok state)
    (h' : divideOut limit' r p steps m = .ok state') : state = state' := by
  fun_induction divideOut limit r p steps m with
  | case1 p steps m hdeg =>
      rw [divideOut, dif_pos hdeg] at h'
      exact Except.ok.inj (h.symm.trans h')
  | case2 p steps m hdeg hlimit => cases h
  | case3 p steps m hdeg hlimit division hrem =>
      have hfirst := divideOut_first hdeg h'
      rw [if_pos hrem] at hfirst
      exact Except.ok.inj (h.symm.trans hfirst)
  | case4 p steps m hdeg hlimit division hrem ih =>
      have hfirst := divideOut_first hdeg h'
      rw [if_neg hrem] at hfirst
      exact ih h hfirst

lemma divideOutAll_limit {limit limit' : ℤ} {rs : List ℚ} {p : Polynomial} {steps : ℕ}
    {f f' : RootFactorization} (h : divideOutAll limit rs p steps = .ok f)
    (h' : divideOutAll limit' rs p steps = .ok f') : f = f' := by
  induction rs generalizing p steps f f' with
  | nil => exact Except.ok.inj (h.symm.trans h')
  | cons r rs ih =>
      obtain ⟨state, g, hstate, hg, rfl⟩ := exists_of_divideOutAll_cons h
      obtain ⟨state', g', hstate', hg', rfl⟩ := exists_of_divideOutAll_cons h'
      obtain rfl := divideOut_limit hstate hstate'
      obtain rfl := ih hg hg'
      rfl

/-- The listed roots are those that are divided out. -/
lemma map_fst_roots_divideOutAll {limit : ℤ} {rs : List ℚ} {p : Polynomial} {steps : ℕ}
    {f : RootFactorization} (h : divideOutAll limit rs p steps = .ok f) :
    f.roots.map Prod.fst = rs := by
  induction rs generalizing p steps f with
  | nil => cases h; rfl
  | cons r rs ih =>
      obtain ⟨state, g, -, hg, rfl⟩ := exists_of_divideOutAll_cons h
      rw [List.map_cons, ih hg]

lemma map_fst_roots {p : Polynomial} {limit : ℤ} {rs : List ℚ} {f : RootFactorization}
    (hrs : p.rationalRoots true defaultRootCandidates = .ok rs)
    (hf : p.rootMultiplicities limit = .ok f) : f.roots.map Prod.fst = rs := by
  obtain ⟨rs', hrs', h⟩ := bind_eq_ok_iff.mp hf
  obtain rfl := Except.ok.inj (hrs.symm.trans hrs')
  exact map_fst_roots_divideOutAll h

/-- A count that returns has the same result under every limit under which it returns. -/
lemma rootMultiplicities_limit {p : Polynomial} {limit limit' : ℤ} {f f' : RootFactorization}
    (h : p.rootMultiplicities limit = .ok f) (h' : p.rootMultiplicities limit' = .ok f') :
    f = f' := by
  obtain ⟨rs, hrs, hf⟩ := bind_eq_ok_iff.mp h
  obtain ⟨rs', hrs', hf'⟩ := bind_eq_ok_iff.mp h'
  obtain rfl := Except.ok.inj (hrs.symm.trans hrs')
  exact divideOutAll_limit hf hf'

end Polynomial

/-- The synthetic divisions that lead to a factorization: as many as its roots have multiplicities,
and one more for every root, except for the last one when the cofactor is constant. -/
def RootFactorization.divisions (f : RootFactorization) : ℕ :=
  if f.roots = [] then 0
  else if f.cofactor.degree < 1 then (f.roots.map Prod.snd).sum + f.roots.length - 1
  else (f.roots.map Prod.snd).sum + f.roots.length

namespace Polynomial

lemma divisionCount_eq_divisions {p : Polynomial} {f : RootFactorization}
    (hf : IsFactorization p.toPoly f) : p.divisionCount = f.divisions := by
  rw [divisionCount_eq_of_isFactorization hf, RootFactorization.divisions]
  by_cases hroots : f.roots = []
  · simp [hroots]
  · rw [if_neg hroots]
    split <;> rfl

/-- A factorization takes no division only when there is no root. -/
lemma divisions_eq_zero_iff {p : ℚ[X]} {f : RootFactorization} (hf : IsFactorization p f) :
    f.divisions = 0 ↔ f.roots = [] := by
  constructor
  · intro h
    by_contra hroots
    obtain ⟨rm, rms, hcons⟩ := List.exists_cons_of_ne_nil hroots
    have hm : 1 ≤ rm.2 := hf.one_le_multiplicity (by rw [hcons]; exact List.mem_cons_self)
    rw [RootFactorization.divisions, if_neg hroots, hcons] at h
    simp only [List.map_cons, List.sum_cons, List.length_cons] at h
    split at h <;> omega
  · intro h
    rw [RootFactorization.divisions, if_pos h]

/-- The limits of a count, once the search has returned. -/
lemma countWithin_iff {p : Polynomial} {f : RootFactorization} (hf : IsFactorization p.toPoly f)
    (hsearch : SearchWithin p.searchForm defaultRootCandidates) (limit : ℤ) :
    p.CountWithin limit ↔ ¬(f.roots ≠ [] ∧ limit < f.divisions) := by
  rw [CountWithin, and_iff_right hsearch, divisionCount_eq_divisions hf,
    divisions_eq_zero_iff hf, not_and_or, not_not, not_lt]

/-- **The limit of a count of multiplicities is exact.** When the search for the rational roots of a
polynomial returns, there is one complete factorization, over the roots that it lists. Under every
limit the count is refused as a limit exceeded exactly when there is a root and the divisions that
lead to the factorization are more than the limit, and otherwise it returns this factorization. -/
theorem multiplicity_limit_exact (p : Polynomial) (rs : List ℚ)
    (hrs : p.rationalRoots true defaultRootCandidates = .ok rs) :
    ∃ f : RootFactorization, IsFactorization p.toPoly f ∧ f.roots.map Prod.fst = rs
      ∧ ∀ limit : ℤ,
        (failure (p.rootMultiplicities limit) = some .limitExceeded ↔
          f.roots ≠ [] ∧ limit < f.divisions)
        ∧ (failure (p.rootMultiplicities limit) ≠ some .limitExceeded →
          p.rootMultiplicities limit = .ok f) := by
  have hp := isZero_of_rationalRoots_eq_ok hrs
  have hsearch : SearchWithin p.searchForm defaultRootCandidates := by
    by_contra hbeyond
    obtain ⟨e, he, -⟩ := rationalRoots_eq_error hp hbeyond
    cases hrs.symm.trans he
  have hcount : p.CountWithin p.divisionCount := ⟨hsearch, .inr le_rfl⟩
  -- under a limit that is high enough the count returns; every other run is compared with this one
  obtain ⟨f, hrun, hf⟩ := exists_isFactorization hp hcount
  refine ⟨f, hf, map_fst_roots hrs hrun, fun limit => ?_⟩
  by_cases hlimit : p.CountWithin limit
  · obtain ⟨f', hrun', -⟩ := exists_isFactorization hp hlimit
    obtain rfl := rootMultiplicities_limit hrun hrun'
    have hreturns := failure_ne_some hrun' .limitExceeded
    exact ⟨iff_of_false hreturns ((countWithin_iff hf hsearch limit).mp hlimit), fun _ => hrun'⟩
  · have hrefused := failure_rootMultiplicities hp hlimit
    rw [countWithin_iff hf hsearch, not_not] at hlimit
    exact ⟨iff_of_true hrefused hlimit, fun h => absurd hrefused h⟩

/-- The product `(x - 1/2)² (x + 3)` takes four divisions, and its product with `2x² + 2`, where the
last root is tried once more, takes five. -/
theorem multiplicity_limit_exact_quintic :
    let p := ofRoots [1/2, -3, 1/2] none
    let q := p * ofList [2, 0, 2] none
    p.rationalRoots true defaultRootCandidates = .ok [-3, 1/2]
      ∧ q.rationalRoots true defaultRootCandidates = .ok [-3, 1/2]
      ∧ failure (p.rootMultiplicities 3) = some .limitExceeded
      ∧ p.rootMultiplicities 4 = .ok ⟨[(-3, 1), (1/2, 2)], one none⟩
      ∧ failure (q.rootMultiplicities 4) = some .limitExceeded
      ∧ q.rootMultiplicities 5 = .ok ⟨[(-3, 1), (1/2, 2)], ofList [2, 0, 2] none⟩ := by
  intro p q
  have hp : p.rationalRoots true defaultRootCandidates = .ok [-3, 1/2] := by decide +kernel
  have hq : q.rationalRoots true defaultRootCandidates = .ok [-3, 1/2] := by decide +kernel
  have hprun : p.rootMultiplicities 4 = .ok ⟨[(-3, 1), (1/2, 2)], one none⟩ := by decide +kernel
  have hqrun : q.rootMultiplicities 5 = .ok ⟨[(-3, 1), (1/2, 2)], ofList [2, 0, 2] none⟩ := by
    decide +kernel
  obtain ⟨f, -, -, hlimit⟩ := multiplicity_limit_exact p _ hp
  obtain ⟨g, -, -, hlimit'⟩ := multiplicity_limit_exact q _ hq
  obtain rfl := Except.ok.inj (hprun.symm.trans ((hlimit 4).2 (failure_ne_some hprun _)))
  obtain rfl := Except.ok.inj (hqrun.symm.trans ((hlimit' 5).2 (failure_ne_some hqrun _)))
  exact ⟨hp, hq, (hlimit 3).1.mpr (by decide +kernel), hprun,
    (hlimit' 4).1.mpr (by decide +kernel), hqrun⟩

/-- A limit below zero is no limit when no division is made. The polynomial `x² + 1` has no rational
root, so that its count takes no division, which is more than the limit `-1` of them, and yet it
returns. -/
theorem multiplicity_limit_negative :
    let p := ofList [1, 0, 1] none
    let f : RootFactorization := ⟨[], p⟩
    p.isZero = false ∧ p.rationalRoots true defaultRootCandidates = .ok []
      ∧ IsFactorization p.toPoly f ∧ f.divisions = 0
      ∧ p.rootMultiplicities (-1) = .ok f
      ∧ ¬(failure (p.rootMultiplicities (-1)) = some .limitExceeded ↔
        (-1 : ℤ) < f.divisions) := by
  intro p f
  have hrun : p.rootMultiplicities (-1) = .ok f := by decide +kernel
  have hreturns := failure_ne_some hrun .limitExceeded
  exact ⟨by decide +kernel, by decide +kernel, rootMultiplicities_isFactorization hrun, rfl, hrun,
    fun h => hreturns (h.mpr (by decide))⟩

end Polynomial

end ExactAlgebra
