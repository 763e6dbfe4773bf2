import DocStore.Proofs.Double.Rounding
/-!
# The digits of a double read back

The digits that `Double.shortest` answers are read as the double they were made from. Every
candidate of the search was read back before it was taken, the exact value is read back because
rounding it changes nothing, and moving zeros into the exponent does not change what is read.

* `ofDecimal?_eq_nearest?`: a decimal is rounded like the quotient it stands for.
* `ofDecimal?_shortest`: the digits of a double are read as that double.
-/

namespace DocStore.Double

-- ---------------------------------------------------------------------------
-- Decimals as quotients
-- ---------------------------------------------------------------------------

/-- A power of ten below one is at most the same power of eight. -/
theorem ten_zpow_le {e : ℤ} (he : e ≤ 0) : (10 : ℚ) ^ e ≤ (2 : ℚ) ^ (3 * e) := by
  obtain ⟨n, rfl⟩ := Int.exists_eq_neg_ofNat he
  rw [zpow_mul, zpow_neg, zpow_neg, zpow_natCast, zpow_natCast]
  apply inv_anti₀ (by positivity)
  exact pow_le_pow_left₀ (by norm_num) (by norm_num) n

/-- A decimal is rounded like the quotient it stands for: the exponents that are settled without
computing the power give no other answer. -/
theorem ofDecimal?_eq_nearest? (negative : Bool) (digits : Nat) (exponent : ℤ) :
    ofDecimal? negative digits exponent =
      nearest? negative (digits * 10 ^ exponent.toNat) (10 ^ (-exponent).toNat) := by
  have hden : 0 < 10 ^ (-exponent).toNat := by positivity
  have hvalue : ((digits * 10 ^ exponent.toNat : ℕ) : ℚ) / ((10 ^ (-exponent).toNat : ℕ) : ℚ) =
      digits * (10 : ℚ) ^ exponent := by
    rw [zpow_eq_toNat_div]
    push_cast
    ring
  unfold ofDecimal?
  split
  · rename_i h0
    rw [nearest?, if_pos (by simp [h0])]
  rename_i h0
  split
  · -- far too large: eight to the 400 is out of range, and ten to the 400 is larger
    rename_i hbig
    symm
    apply nearest?_overflow negative hden
    rw [hvalue]
    have hdigits : (1 : ℚ) ≤ digits := by exact_mod_cast Nat.one_le_iff_ne_zero.mpr h0
    calc (2 : ℚ) ^ (1100 : ℤ) ≤ (2 : ℚ) ^ (3 * 400 : ℤ) :=
          zpow_le_zpow_right₀ (by norm_num) (by norm_num)
      _ = ((2 : ℚ) ^ (3 : ℤ)) ^ (400 : ℤ) := zpow_mul _ _ _
      _ ≤ (10 : ℚ) ^ (400 : ℤ) := zpow_le_zpow_left₀ (by norm_num) (by norm_num) (by norm_num)
      _ ≤ (10 : ℚ) ^ exponent := zpow_le_zpow_right₀ (by norm_num) (by omega)
      _ ≤ digits * (10 : ℚ) ^ exponent := le_mul_of_one_le_left (by positivity) hdigits
  split
  · -- far too small: the digits and the power of ten together lie below half the smallest step
    rename_i hsmall
    symm
    apply nearest?_underflow negative hden
    rw [hvalue]
    have hdigits : (digits : ℚ) < (2 : ℚ) ^ ((digits.log2 : ℤ) + 1) := by
      exact_mod_cast Nat.lt_log2_self
    have hten : (10 : ℚ) ^ exponent ≤ (2 : ℚ) ^ (3 * exponent) := ten_zpow_le (by omega)
    calc digits * (10 : ℚ) ^ exponent
        < (2 : ℚ) ^ ((digits.log2 : ℤ) + 1) * (10 : ℚ) ^ exponent :=
          mul_lt_mul_of_pos_right hdigits (by positivity)
      _ ≤ (2 : ℚ) ^ ((digits.log2 : ℤ) + 1) * (2 : ℚ) ^ (3 * exponent) :=
          mul_le_mul_of_nonneg_left hten (by positivity)
      _ = (2 : ℚ) ^ ((digits.log2 : ℤ) + 1 + 3 * exponent) := (zpow_add₀ (by norm_num) _ _).symm
      _ ≤ (2 : ℚ) ^ (-1075 : ℤ) := zpow_le_zpow_right₀ (by norm_num) (by omega)
  · rfl

/-- Zeros at the end of the digits can be moved into the exponent. -/
theorem ofDecimal?_mul_pow_ten (negative : Bool) (digits k : Nat) (exponent : ℤ) :
    ofDecimal? negative (digits * 10 ^ k) (exponent - k) = ofDecimal? negative digits exponent := by
  rw [ofDecimal?_eq_nearest?, ofDecimal?_eq_nearest?]
  apply nearest?_congr negative (by positivity) (by positivity)
  have hpow : k + (exponent - k).toNat + (-exponent).toNat =
      exponent.toNat + (-(exponent - k)).toNat := by omega
  calc digits * 10 ^ k * 10 ^ (exponent - k).toNat * 10 ^ (-exponent).toNat
      = digits * 10 ^ (k + (exponent - k).toNat + (-exponent).toNat) := by
        rw [pow_add, pow_add]
        ring
    _ = digits * 10 ^ (exponent.toNat + (-(exponent - k)).toNat) := by rw [hpow]
    _ = digits * 10 ^ exponent.toNat * 10 ^ (-(exponent - k)).toNat := by
        rw [pow_add]
        ring

-- ---------------------------------------------------------------------------
-- The shortest digits
-- ---------------------------------------------------------------------------

/-- Moving zeros into the exponent does not change what is read. -/
theorem ofDecimal?_strip (negative : Bool) (bound : Nat) (c : Decimal) :
    ofDecimal? negative (c.strip bound).digits (c.strip bound).exponent =
      ofDecimal? negative c.digits c.exponent := by
  induction bound generalizing c with
  | zero => rfl
  | succ bound ih =>
    rw [Decimal.strip]
    split
    · rename_i h
      rw [ih]
      -- the last digit is a zero, so a tenth with the next exponent is the same number
      have hdigits : c.digits / 10 * 10 ^ 1 = c.digits := by omega
      have hexp : c.exponent + 1 - (1 : ℕ) = c.exponent := by omega
      have := ofDecimal?_mul_pow_ten negative (c.digits / 10) 1 (c.exponent + 1)
      rw [hdigits, hexp] at this
      exact this.symm
    · rfl

/-- The exact value of a double is read as the double. -/
theorem ofDecimal?_exact {d : Double} (hm : d.mantissa ≠ 0) :
    (if d.exponent < 0 then
        ofDecimal? d.negative (d.mantissa * Nat.pow 5 (-d.exponent).toNat) d.exponent
      else ofDecimal? d.negative (d.mantissa * Nat.pow 2 d.exponent.toNat) 0) = some d := by
  rw [← nearest?_exact d hm]
  split
  · rename_i he
    rw [ofDecimal?_eq_nearest?]
    have hzero : d.exponent.toNat = 0 := by omega
    apply nearest?_congr d.negative (by positivity) (Nat.pow_pos (by norm_num))
    simp only [Nat.pow_eq, hzero, pow_zero, Nat.mul_one]
    -- a power of two in the denominator is cancelled by one of five
    rw [show (10 : ℕ) = 5 * 2 from rfl, mul_pow]
    ring
  · rename_i he
    rw [ofDecimal?_eq_nearest?]
    have hzero : (-d.exponent).toNat = 0 := by omega
    apply nearest?_congr d.negative (by positivity) (Nat.pow_pos (by norm_num))
    simp [hzero]

/-- Whatever the search answers is read as the double. -/
theorem ofDecimal?_searchDigits {d : Double} (hm : d.mantissa ≠ 0) (count : Nat) (place : ℤ) :
    ofDecimal? d.negative (searchDigits d count place).digits (searchDigits d count place).exponent =
      some d := by
  induction count generalizing place with
  | zero =>
    -- no candidate was taken at any place, and the exact value is left
    have h := ofDecimal?_exact hm
    rw [searchDigits]
    split <;> rename_i he
    · simpa only [he, if_true] using h
    · simpa only [he, if_false] using h
  | succ count ih =>
    rw [searchDigits]
    split
    · rename_i c rest hc
      -- a candidate was read back before it was taken
      have hmem : c ∈ d.candidates place := by
        rw [hc]
        exact List.mem_cons_self
      have hread : d.isReadFrom c = true := by
        unfold candidates at hmem
        exact (List.mem_filter.mp hmem).2
      exact beq_iff_eq.mp hread
    · exact ih _

/-- The digits a double is written with are read as that double. -/
theorem ofDecimal?_shortest (d : Double) :
    ofDecimal? d.negative d.shortest.digits d.shortest.exponent = some d := by
  unfold shortest
  split
  · rename_i h0
    obtain ⟨negative, m, e, hc⟩ := d
    obtain rfl : m = 0 := h0
    -- zero is written in one way, at the smallest scale
    have he : e = -1074 := by
      rcases hc.2.2.2 with h | h
      · simp [Nat.pow_eq] at h
      · exact h
    subst he
    rfl
  · rename_i hm
    rw [ofDecimal?_strip]
    exact ofDecimal?_searchDigits hm _ _

/-- Zero has the exponent zero. -/
theorem shortest_exponent {d : Double} (h : d.shortest.digits = 0) : d.shortest.exponent = 0 := by
  have hread := ofDecimal?_shortest d
  rw [h, ofDecimal?, if_pos rfl] at hread
  have hm : d.mantissa = 0 := by
    rw [← Option.some.inj hread]
    rfl
  rw [shortest, if_pos hm]

end DocStore.Double
