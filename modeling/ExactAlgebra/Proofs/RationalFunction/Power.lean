import ExactAlgebra.Proofs.RationalFunction.Field

/-!
Integer powers of rational functions.

A natural power is taken of numerator and denominator, a negative one of the reciprocal. Either way
the power of a function that is not zero returns, and it is the power of `ℚ(X)`
(`pow?_eq_ok`). The laws are those of the integer powers there: `pow?_add`, `pow?_mul`, `mul_pow?`
and `pow?_neg`, each of computations that all return. Zero has natural powers only
(`pow?_of_isZero`).

Main statement: `power_laws`.
-/

namespace ExactAlgebra.RationalFunction

variable {r s : RationalFunction}

/-! ### The power in the field -/

/-- A natural power is taken of numerator and denominator. -/
lemma pow?_natCast (r : RationalFunction) (n : ℕ) : r.pow? n = .ok (r ^ n) :=
  if_neg (by omega)

/-- A negative power is a power of the reciprocal. -/
lemma pow?_negSucc (r : RationalFunction) (n : ℕ) :
    r.pow? (Int.negSucc n) = r.reciprocal?.bind fun t => .ok (t ^ (n + 1)) :=
  if_pos (Int.negSucc_lt_zero n)

/-- A power of a function that is not zero returns, and is not zero. -/
lemma pow?_eq_ok (hr : r.isZero = false) (n : ℤ) :
    ∃ q, r.pow? n = .ok q ∧ q.isZero = false ∧ q.toRatFunc = r.toRatFunc ^ n := by
  have hpow : ∃ q, r.pow? n = .ok q ∧ q.toRatFunc = r.toRatFunc ^ n := by
    -- the two cases are those of the computation
    cases n with
    | ofNat n =>
        refine ⟨r ^ n, pow?_natCast r n, ?_⟩
        rw [toRatFunc_pow, Int.ofNat_eq_natCast, zpow_natCast]
    | negSucc n =>
        obtain ⟨t, ht, hval⟩ := reciprocal?_eq_ok hr
        refine ⟨t ^ (n + 1), ?_, ?_⟩
        · rw [pow?_negSucc, ht]
          rfl
        · rw [toRatFunc_pow, hval, inv_pow, zpow_negSucc]
  obtain ⟨q, hq, hval⟩ := hpow
  refine ⟨q, hq, ?_, hval⟩
  rw [← toRatFunc_ne_zero_iff, hval]
  exact zpow_ne_zero n (toRatFunc_ne_zero_iff.mpr hr)

/-! ### Laws of powers -/

/-- The power of a sum of exponents is the product of the powers. -/
lemma pow?_add (hr : r.isZero = false) (m n : ℤ) :
    ∃ a b c, r.pow? (m + n) = .ok a ∧ r.pow? m = .ok b ∧ r.pow? n = .ok c
      ∧ (a == b * c) = true := by
  obtain ⟨a, ha, -, haval⟩ := pow?_eq_ok hr (m + n)
  obtain ⟨b, hb, -, hbval⟩ := pow?_eq_ok hr m
  obtain ⟨c, hc, -, hcval⟩ := pow?_eq_ok hr n
  refine ⟨a, b, c, ha, hb, hc, beq_iff_toRatFunc.mpr ?_⟩
  calc a.toRatFunc = r.toRatFunc ^ (m + n) := haval
    _ = r.toRatFunc ^ m * r.toRatFunc ^ n := zpow_add₀ (toRatFunc_ne_zero_iff.mpr hr) m n
    _ = (b * c).toRatFunc := by rw [toRatFunc_mul, hbval, hcval]

/-- The power of a power has the product of the exponents. -/
lemma pow?_mul (hr : r.isZero = false) (m n : ℤ) :
    ∃ b a c, r.pow? m = .ok b ∧ b.pow? n = .ok a ∧ r.pow? (m * n) = .ok c ∧ (a == c) = true := by
  obtain ⟨b, hb, hbne, hbval⟩ := pow?_eq_ok hr m
  obtain ⟨a, ha, -, haval⟩ := pow?_eq_ok hbne n
  obtain ⟨c, hc, -, hcval⟩ := pow?_eq_ok hr (m * n)
  refine ⟨b, a, c, hb, ha, hc, beq_iff_toRatFunc.mpr ?_⟩
  calc a.toRatFunc = (r.toRatFunc ^ m) ^ n := by rw [haval, hbval]
    _ = r.toRatFunc ^ (m * n) := (zpow_mul _ m n).symm
    _ = c.toRatFunc := hcval.symm

/-- The power of a product is the product of the powers. -/
lemma mul_pow? (hr : r.isZero = false) (hs : s.isZero = false) (n : ℤ) :
    ∃ a b c, (r * s).pow? n = .ok a ∧ r.pow? n = .ok b ∧ s.pow? n = .ok c
      ∧ (a == b * c) = true := by
  have hrs : (r * s).isZero = false := Polynomial.isZero_mul hr hs
  obtain ⟨a, ha, -, haval⟩ := pow?_eq_ok hrs n
  obtain ⟨b, hb, -, hbval⟩ := pow?_eq_ok hr n
  obtain ⟨c, hc, -, hcval⟩ := pow?_eq_ok hs n
  refine ⟨a, b, c, ha, hb, hc, beq_iff_toRatFunc.mpr ?_⟩
  calc a.toRatFunc = (r.toRatFunc * s.toRatFunc) ^ n := by rw [haval, toRatFunc_mul]
    _ = r.toRatFunc ^ n * s.toRatFunc ^ n := mul_zpow _ _ n
    _ = (b * c).toRatFunc := by rw [toRatFunc_mul, hbval, hcval]

/-- The power of a negative exponent is the reciprocal of the power. -/
lemma pow?_neg (hr : r.isZero = false) (n : ℤ) :
    ∃ a b c, r.pow? (-n) = .ok a ∧ r.pow? n = .ok b ∧ b.reciprocal? = .ok c
      ∧ (a == c) = true := by
  obtain ⟨a, ha, -, haval⟩ := pow?_eq_ok hr (-n)
  obtain ⟨b, hb, hbne, hbval⟩ := pow?_eq_ok hr n
  obtain ⟨c, hc, hcval⟩ := reciprocal?_eq_ok hbne
  refine ⟨a, b, c, ha, hb, hc, beq_iff_toRatFunc.mpr ?_⟩
  calc a.toRatFunc = r.toRatFunc ^ (-n) := haval
    _ = (r.toRatFunc ^ n)⁻¹ := zpow_neg _ n
    _ = c.toRatFunc := by rw [hcval, hbval]

/-! ### Powers of zero -/

/-- The zeroth power is one, that of zero included. -/
lemma pow?_zero (r : RationalFunction) : ∃ q, r.pow? 0 = .ok q ∧ (q == const 1) = true := by
  refine ⟨r ^ 0, pow?_natCast r 0, beq_iff_toRatFunc.mpr ?_⟩
  rw [toRatFunc_pow, pow_zero, toRatFunc_const, Polynomial.C_1, map_one]

/-- Zero has positive powers, which are zero, and no negative ones. -/
lemma pow?_of_isZero (hr : r.isZero = true) (n : ℤ) :
    (0 < n → ∃ q, r.pow? n = .ok q ∧ q.isZero = true)
      ∧ (n < 0 → failure (r.pow? n) = some .divisionByZero) := by
  constructor
  · intro hn
    obtain ⟨k, rfl⟩ := Int.eq_ofNat_of_zero_le hn.le
    have hk : k ≠ 0 := by omega
    refine ⟨r ^ k, pow?_natCast r k, ?_⟩
    rw [← toRatFunc_eq_zero_iff, toRatFunc_pow, toRatFunc_eq_zero_iff.mpr hr, zero_pow hk]
  · intro hn
    exact failure_eq_some_iff.mpr ⟨_, pow?_eq_error_iff.mpr ⟨hn, hr, rfl⟩, rfl⟩

/-- **Integer powers have the laws of powers.** All integer powers of functions that are not zero
return. The power of a sum of exponents is the product of the powers, the power of a power has the
product of the exponents, the power of a product is the product of the powers, and the power of a
negative is the reciprocal. The zeroth power of zero is one, its positive powers are zero, and its
negative ones are refused as a division by zero. -/
theorem power_laws :
    (∀ r s : RationalFunction, r.isZero = false → s.isZero = false → ∀ m n : ℤ,
      (∃ a b c, r.pow? (m + n) = .ok a ∧ r.pow? m = .ok b ∧ r.pow? n = .ok c
        ∧ (a == b * c) = true)
      ∧ (∃ b a c, r.pow? m = .ok b ∧ b.pow? n = .ok a ∧ r.pow? (m * n) = .ok c ∧ (a == c) = true)
      ∧ (∃ a b c, (r * s).pow? n = .ok a ∧ r.pow? n = .ok b ∧ s.pow? n = .ok c
        ∧ (a == b * c) = true)
      ∧ ∃ a b c, r.pow? (-n) = .ok a ∧ r.pow? n = .ok b ∧ b.reciprocal? = .ok c
        ∧ (a == c) = true)
    ∧ ∀ r : RationalFunction, r.isZero = true →
      (∃ q, r.pow? 0 = .ok q ∧ (q == const 1) = true)
      ∧ ∀ n : ℤ, (0 < n → ∃ q, r.pow? n = .ok q ∧ q.isZero = true)
        ∧ (n < 0 → failure (r.pow? n) = some .divisionByZero) :=
  ⟨fun _ _ hr hs m n => ⟨pow?_add hr m n, pow?_mul hr m n, mul_pow? hr hs n, pow?_neg hr n⟩,
    fun r hr => ⟨pow?_zero r, pow?_of_isZero hr⟩⟩

/-- The functions `(x² - 49) / (x - 7)` and `5x / 5x²` with the exponents `-3` and `2`, whose sum is
negative as well, and the zero function `0 / (x + 7)`. -/
theorem power_laws_unreduced :
    let r : RationalFunction := ⟨.ofList [-49, 0, 1] none, .ofList [-7, 1] none, by decide +kernel⟩
    let s : RationalFunction := ⟨.ofList [0, 5] none, .ofList [0, 0, 5] none, by decide +kernel⟩
    let z : RationalFunction := ⟨.zero none, .ofList [7, 1] none, by decide +kernel⟩
    r.isZero = false ∧ s.isZero = false ∧ z.isZero = true
      ∧ (∃ a b c, r.pow? (-1) = .ok a ∧ r.pow? (-3) = .ok b ∧ r.pow? 2 = .ok c
        ∧ (a == b * c) = true)
      ∧ (∃ b a c, r.pow? (-3) = .ok b ∧ b.pow? 2 = .ok a ∧ r.pow? (-6) = .ok c ∧ (a == c) = true)
      ∧ (∃ a b c, (r * s).pow? 2 = .ok a ∧ r.pow? 2 = .ok b ∧ s.pow? 2 = .ok c
        ∧ (a == b * c) = true)
      ∧ (∃ a b c, r.pow? (-2) = .ok a ∧ r.pow? 2 = .ok b ∧ b.reciprocal? = .ok c
        ∧ (a == c) = true)
      ∧ (∃ q, z.pow? 0 = .ok q ∧ (q == const 1) = true)
      ∧ (∃ q, z.pow? 2 = .ok q ∧ q.isZero = true)
      ∧ failure (z.pow? (-3)) = some .divisionByZero := by
  intro r s z
  have hr : r.isZero = false := by decide +kernel
  have hs : s.isZero = false := by decide +kernel
  have hz : z.isZero = true := by decide +kernel
  obtain ⟨hadd, hmul, hprod, hneg⟩ := power_laws.1 r s hr hs (-3) 2
  obtain ⟨hone, hpowers⟩ := power_laws.2 z hz
  exact ⟨hr, hs, hz, hadd, hmul, hprod, hneg, hone, (hpowers 2).1 (by decide),
    (hpowers (-3)).2 (by decide)⟩

end ExactAlgebra.RationalFunction
