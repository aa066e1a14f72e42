import Mathlib.Data.Nat.Sqrt
import Mathlib.NumberTheory.Divisors
import Mathlib.Tactic.Linarith
import ExactAlgebra.Integer.Divisors
import ExactAlgebra.Proofs.Outcome

/-!
The listing of divisors is complete.

A divisor above the square root is the cofactor of one below it (`sqrt_lt_div`), so that
trial division up to the square root finds every divisor either directly or as a cofactor
(`mem_divisorsOf`). The small divisors and the reversed cofactors are ascending, and every
cofactor lies above the square root, so the whole list is strictly ascending
(`pairwise_divisorsOf`) and has one entry for each divisor (`length_divisorsOf`). It is the list of
first members of all factorizations into two factors (`divisorsOf_eq`), and the second members are
the same list from its end (`getElem_mul_getElem`).

Main statement: `divisors_complete`.
-/

namespace ExactAlgebra.Integer

/-! ### The divisors up to the square root -/

/-- The divisors found so far stay in front of the ones above `k` that were found before. -/
lemma pairwise_smallDivisors {n k : ℕ} {found : List ℕ} (hf : found.Pairwise (· < ·))
    (hk : ∀ d ∈ found, k < d) : (smallDivisors n k found).Pairwise (· < ·) := by
  induction k generalizing found with
  | zero => exact hf
  | succ k ih =>
      rw [smallDivisors]
      split
      · refine ih (List.pairwise_cons.mpr ⟨hk, hf⟩) fun d hd => ?_
        rcases List.mem_cons.mp hd with rfl | hd
        · exact Nat.lt_succ_self k
        · exact Nat.lt_of_succ_lt (hk d hd)
      · exact ih hf fun d hd => Nat.lt_of_succ_lt (hk d hd)

/-- The loop to the square root finds the divisors that are not above it. -/
lemma mem_small {n d : ℕ} (hn : n ≠ 0) :
    d ∈ smallDivisors n n.sqrt [] ↔ d ∣ n ∧ d * d ≤ n := by
  rw [mem_smallDivisors, Nat.le_sqrt]
  constructor
  · rintro (h | ⟨_, hle, hdvd⟩)
    · exact absurd h List.not_mem_nil
    · exact ⟨hdvd, hle⟩
  · rintro ⟨hdvd, hle⟩
    exact .inr ⟨Nat.pos_of_dvd_of_pos hdvd (Nat.pos_of_ne_zero hn), hle, hdvd⟩

/-! ### The cofactors -/

/-- The cofactor of a divisor below the square root lies above it. -/
lemma sqrt_lt_div {n d : ℕ} (hn : n ≠ 0) (hdvd : d ∣ n) (hlt : d * d < n) :
    n.sqrt < n / d := by
  have hd : 0 < d := Nat.pos_of_dvd_of_pos hdvd (Nat.pos_of_ne_zero hn)
  obtain ⟨e, rfl⟩ := hdvd
  rw [Nat.mul_div_cancel_left e hd, Nat.sqrt_lt]
  have hde : d < e := Nat.lt_of_mul_lt_mul_left hlt
  exact Nat.mul_lt_mul_of_pos_right hde (by omega)

/-- The cofactors of these are the divisors above it. -/
lemma mem_cofactors {n d : ℕ} (hn : n ≠ 0) :
    d ∈ (((smallDivisors n n.sqrt []).filter fun d => d * d != n).map fun d => n / d).reverse
      ↔ d ∣ n ∧ n < d * d := by
  simp only [List.mem_reverse, List.mem_map, List.mem_filter, mem_small hn, bne_iff_ne]
  constructor
  · rintro ⟨e, ⟨⟨hdvd, hle⟩, hne⟩, rfl⟩
    exact ⟨Nat.div_dvd_of_dvd hdvd,
      Nat.sqrt_lt.mp (sqrt_lt_div hn hdvd (lt_of_le_of_ne hle hne))⟩
  · rintro ⟨⟨e, rfl⟩, hlt⟩
    have hd : 0 < d := Nat.pos_of_ne_zero fun h => hn (by rw [h, Nat.zero_mul])
    have hed : e < d := Nat.lt_of_mul_lt_mul_left hlt
    have he : 0 < e := Nat.pos_of_ne_zero fun h => hn (by rw [h, Nat.mul_zero])
    have hee : e * e < d * e := Nat.mul_lt_mul_of_pos_right hed he
    exact ⟨e, ⟨⟨Nat.dvd_mul_left e d, hee.le⟩, hee.ne⟩, Nat.mul_div_cancel d he⟩

/-! ### The whole list -/

/-- The list has every divisor of a positive number. -/
lemma mem_divisorsOf {n d : ℕ} (hn : n ≠ 0) : d ∈ divisorsOf n ↔ d ∣ n := by
  rw [divisorsOf, List.mem_append, mem_small hn, mem_cofactors hn, ← and_or_left,
    and_iff_left_iff_imp]
  exact fun _ => Nat.lt_or_ge n (d * d) |>.symm

/-- The list is strictly ascending, also where the cofactors begin. -/
lemma pairwise_divisorsOf {n : ℕ} (hn : n ≠ 0) : (divisorsOf n).Pairwise (· < ·) := by
  have hsmall : (smallDivisors n n.sqrt []).Pairwise (· < ·) :=
    pairwise_smallDivisors List.Pairwise.nil (by simp)
  refine List.pairwise_append.mpr ⟨hsmall, ?_, fun a ha b hb => ?_⟩
  · rw [List.pairwise_reverse, List.pairwise_map]
    refine (hsmall.filter _).imp_of_mem fun {a b} ha hb hab => ?_
    have hb' := ((mem_small hn).mp (List.mem_of_mem_filter hb)).1
    have ha' := ((mem_small hn).mp (List.mem_of_mem_filter ha)).1
    exact (Nat.div_lt_div_left hn hb' ha').mpr hab
  · have ha' := Nat.le_sqrt.mpr ((mem_small hn).mp ha).2
    have hb' := Nat.sqrt_lt.mpr ((mem_cofactors hn).mp hb).2
    exact lt_of_le_of_lt ha' hb'

/-- The list has as many entries as there are divisors. -/
lemma length_divisorsOf {n : ℕ} (hn : n ≠ 0) : (divisorsOf n).length = n.divisors.card := by
  have hnodup : (divisorsOf n).Nodup := (pairwise_divisorsOf hn).imp fun h => Nat.ne_of_lt h
  rw [← List.toFinset_card_of_nodup hnodup]
  congr 1
  ext d
  rw [List.mem_toFinset, mem_divisorsOf hn, Nat.mem_divisors, and_iff_left hn]

/-- The divisors are listed when the limit admits the square root. -/
lemma divisors_eq_ok {n limit : ℤ} (hn : n ≠ 0) (h : (n.natAbs.sqrt : ℤ) ≤ limit) :
    divisors n limit = .ok (divisorsOf n.natAbs) := by
  rw [divisors, if_neg hn, if_neg (by omega)]

lemma divisors_eq_error {n limit : ℤ} (hn : n ≠ 0) (h : limit < (n.natAbs.sqrt : ℤ)) :
    divisors n limit = .error (.limitExceeded (.divisors n.natAbs) (toString limit)) := by
  rw [divisors, if_neg hn, if_pos h]

lemma failure_divisors_zero (limit : ℤ) : failure (divisors 0 limit) = some .invalidArgument := by
  rw [divisors, if_pos rfl]
  rfl

/-- Only the limit refuses the divisors of a number that is not zero. -/
lemma failure_divisors {n : ℤ} (hn : n ≠ 0) (limit : ℤ) :
    failure (divisors n limit)
      = if limit < (n.natAbs.sqrt : ℤ) then some .limitExceeded else none := by
  split
  · next h => rw [divisors_eq_error hn h]; rfl
  · next h => rw [divisors_eq_ok hn (not_lt.mp h)]; rfl

/-! ### Pairs of divisors -/

/-- The divisors in ascending order are the first members of the factorizations into two
factors. -/
lemma divisorsOf_eq {n : ℕ} (hn : n ≠ 0) :
    divisorsOf n = n.divisorsAntidiagonalList.map Prod.fst := by
  have hpairs := Nat.sortedLT_map_fst_divisorsAntidiagonalList (n := n) |>.pairwise
  refine List.Perm.eq_of_pairwise' (pairwise_divisorsOf hn) hpairs ?_
  rw [List.perm_ext_iff_of_nodup (pairwise_divisorsOf hn).nodup hpairs.nodup]
  intro d
  rw [mem_divisorsOf hn, List.mem_map]
  constructor
  · rintro ⟨e, rfl⟩
    exact ⟨(d, e), Nat.mem_divisorsAntidiagonalList.mpr ⟨rfl, hn⟩, rfl⟩
  · rintro ⟨⟨a, b⟩, hab, rfl⟩
    exact Dvd.intro b (Nat.mem_divisorsAntidiagonalList.mp hab).1

/-- The divisors in descending order are the second members. -/
lemma reverse_divisorsOf {n : ℕ} (hn : n ≠ 0) :
    (divisorsOf n).reverse = n.divisorsAntidiagonalList.map Prod.snd := by
  rw [divisorsOf_eq hn, ← List.map_reverse, Nat.reverse_divisorsAntidiagonalList, List.map_map]
  rfl

/-- A divisor and the one at the same place from the end are a factorization. -/
lemma getElem_mul_getElem {n : ℕ} (hn : n ≠ 0) {i : ℕ} (hi : i < (divisorsOf n).length) :
    (divisorsOf n)[i] * (divisorsOf n)[(divisorsOf n).length - 1 - i] = n := by
  have hlen : i < n.divisorsAntidiagonalList.length := by
    rwa [divisorsOf_eq hn, List.length_map] at hi
  have hfirst : (divisorsOf n)[i] = n.divisorsAntidiagonalList[i].1 := by
    simp only [divisorsOf_eq hn, List.getElem_map]
  have hsecond : (divisorsOf n)[(divisorsOf n).length - 1 - i]
      = n.divisorsAntidiagonalList[i].2 := by
    rw [← List.getElem_reverse (by rwa [List.length_reverse])]
    simp only [reverse_divisorsOf hn, List.getElem_map]
  rw [hfirst, hsecond]
  exact (Nat.mem_divisorsAntidiagonalList.mp (List.getElem_mem hlen)).1

/-- **The list of divisors is complete.** For an integer other than zero it is refused, at the
limit, exactly when the integral square root of the absolute value is above the limit. Otherwise it
has the positive divisors and nothing else, it is strictly ascending, so that each stands there
once, and the divisor at any place times the one at the same place from the end is the absolute
value. The divisors of zero are refused as an invalid argument, whatever the limit is. -/
theorem divisors_complete :
    (∀ n limit : ℤ, n ≠ 0 →
      (failure (divisors n limit) = some .limitExceeded ↔ limit < (n.natAbs.sqrt : ℤ))
      ∧ ((n.natAbs.sqrt : ℤ) ≤ limit → ∃ ds, divisors n limit = .ok ds
        ∧ ds.Pairwise (· < ·)
        ∧ (∀ d : ℕ, d ∈ ds ↔ 0 < d ∧ (d : ℤ) ∣ n)
        ∧ ∀ (i : ℕ) (hi : i < ds.length), ds[i] * ds[ds.length - 1 - i] = n.natAbs))
    ∧ ∀ limit : ℤ, failure (divisors 0 limit) = some .invalidArgument := by
  refine ⟨fun n limit hn => ⟨?_, fun hlimit => ?_⟩, failure_divisors_zero⟩
  · rw [failure_divisors hn]
    split <;> simp_all
  · have hn' : n.natAbs ≠ 0 := Int.natAbs_ne_zero.mpr hn
    refine ⟨_, divisors_eq_ok hn hlimit, pairwise_divisorsOf hn', fun d => ?_,
      fun i hi => getElem_mul_getElem hn' hi⟩
    rw [mem_divisorsOf hn', ← Int.natCast_dvd, iff_and_self]
    exact fun hd => Nat.pos_of_ne_zero fun h0 => hn (by rwa [h0, Nat.cast_zero, zero_dvd_iff] at hd)

/-- The divisors of `-36`, the square of six: the limit `6` admits them and the limit `5` does
not. -/
theorem divisors_complete_square :
    (-36 : ℤ) ≠ 0 ∧ ((-36 : ℤ).natAbs.sqrt : ℤ) ≤ 6
      ∧ divisors (-36) 6 = .ok [1, 2, 3, 4, 6, 9, 12, 18, 36]
      ∧ (∃ ds, divisors (-36) 6 = .ok ds ∧ ds.Pairwise (· < ·)
        ∧ (∀ d : ℕ, d ∈ ds ↔ 0 < d ∧ (d : ℤ) ∣ -36)
        ∧ ∀ (i : ℕ) (hi : i < ds.length), ds[i] * ds[ds.length - 1 - i] = (-36 : ℤ).natAbs)
      ∧ failure (divisors (-36) 5) = some .limitExceeded := by
  have hn : (-36 : ℤ) ≠ 0 := by decide
  have hlimit : ((-36 : ℤ).natAbs.sqrt : ℤ) ≤ 6 := by decide +kernel
  obtain ⟨hcomplete, -⟩ := divisors_complete
  exact ⟨hn, hlimit, by decide +kernel, (hcomplete (-36) 6 hn).2 hlimit,
    (hcomplete (-36) 5 hn).1.mpr (by decide +kernel)⟩

end ExactAlgebra.Integer
