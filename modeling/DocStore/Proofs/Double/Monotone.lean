import DocStore.Json.Basic
import DocStore.Proofs.Double.Rounding
/-!
# Rounding keeps the order

A greater quotient is never rounded to a smaller double. Between quotients of one binary scale this
is the order of their mantissas; a quotient of a greater scale starts where the mantissas of the
smaller one end.

* `magnitude_nearest?`: what a quotient is rounded to, in one formula.
* `roundedMagnitude_mono`: the greater quotient is not rounded to less.
* `units_toDouble_mono`: integers of 64 bits are rounded in their order.
-/

namespace DocStore

namespace Double

-- ---------------------------------------------------------------------------
-- Rounding to a whole number
-- ---------------------------------------------------------------------------

/-- A quotient is rounded down from at most a half, and up from at least a half. -/
theorem roundHalfEven_cases (num den : Nat) :
    (roundHalfEven num den = num / den ∧ 2 * (num % den) ≤ den) ∨
      (roundHalfEven num den = num / den + 1 ∧ den ≤ 2 * (num % den)) := by
  unfold roundHalfEven
  dsimp only
  split
  · rename_i h
    simp only [Bool.or_eq_true, Bool.and_eq_true, decide_eq_true_eq, beq_iff_eq] at h
    exact .inr ⟨rfl, by omega⟩
  · rename_i h
    simp only [Bool.or_eq_true, decide_eq_true_eq, not_or] at h
    exact .inl ⟨rfl, by omega⟩

/-- Of two quotients with one denominator the greater is not rounded to less. -/
theorem roundHalfEven_le_of_le {num num' : Nat} (den : Nat) (h : num ≤ num') :
    roundHalfEven num den ≤ roundHalfEven num' den := by
  have hdiv : num / den ≤ num' / den := Nat.div_le_div_right h
  have hsplit := Nat.div_add_mod num den
  have hsplit' := Nat.div_add_mod num' den
  rcases hdiv.lt_or_eq with hlt | heq
  · rcases roundHalfEven_cases num den with ⟨hr, -⟩ | ⟨hr, -⟩ <;>
      rcases roundHalfEven_cases num' den with ⟨hr', -⟩ | ⟨hr', -⟩ <;> omega
  · -- with one quotient, only the remainders can differ
    rw [heq] at hsplit
    have hmod : num % den ≤ num' % den := by omega
    rcases roundHalfEven_cases num den with ⟨hr, -⟩ | ⟨hr, hhalf⟩
    · rcases roundHalfEven_cases num' den with ⟨hr', -⟩ | ⟨hr', -⟩ <;> omega
    · rcases roundHalfEven_cases num' den with ⟨hr', hhalf'⟩ | ⟨hr', -⟩
      · have hsame : num = num' := by omega
        rw [hsame]
      · omega

/-- Of any two quotients the greater is not rounded to less. -/
theorem roundHalfEven_mono {num den num' den' : Nat} (hden : 0 < den) (hden' : 0 < den')
    (h : num * den' ≤ num' * den) : roundHalfEven num den ≤ roundHalfEven num' den' := by
  rw [← roundHalfEven_mul_right num den hden', ← roundHalfEven_mul_right num' den' hden,
    Nat.mul_comm den' den]
  exact roundHalfEven_le_of_le _ h

-- ---------------------------------------------------------------------------
-- The mantissa of a quotient
-- ---------------------------------------------------------------------------

/-- The mantissa a quotient is rounded to, the one after the greatest included. -/
def roundedMantissa (num den : Nat) : Nat :=
  roundHalfEven (num * Nat.pow 2 (-exponentOf num den).toNat)
    (den * Nat.pow 2 (exponentOf num den).toNat)

/-- How many steps of `2 ^ -1074` a quotient is rounded to. -/
def roundedMagnitude (num den : Nat) : Nat :=
  roundedMantissa num den * Nat.pow 2 (exponentOf num den + 1074).toNat

variable {num den num' den' : Nat}

/-- A scaled quotient is at most `k` where the quotient is at most `k` steps of its scale. -/
theorem scaled_le_iff (hden : 0 < den) (k : Nat) (e : ℤ) :
    num * Nat.pow 2 (-e).toNat ≤ k * (den * Nat.pow 2 e.toNat) ↔
      (num : ℚ) / den ≤ k * (2 : ℚ) ^ e := by
  rw [zpow_eq_toNat_div, div_le_iff₀ (by positivity), mul_div_assoc', div_mul_eq_mul_div,
    le_div_iff₀ (by positivity), ← Nat.cast_le (α := ℚ)]
  simp only [Nat.pow_eq]
  push_cast
  rw [mul_assoc, mul_comm (den : ℚ)]

/-- A scaled quotient is at least `k` where the quotient is at least `k` steps of its scale. -/
theorem le_scaled_iff (hden : 0 < den) (k : Nat) (e : ℤ) :
    k * (den * Nat.pow 2 e.toNat) ≤ num * Nat.pow 2 (-e).toNat ↔
      k * (2 : ℚ) ^ e ≤ (num : ℚ) / den := by
  rw [zpow_eq_toNat_div, le_div_iff₀ (by positivity), mul_div_assoc', div_mul_eq_mul_div,
    div_le_iff₀ (by positivity), ← Nat.cast_le (α := ℚ)]
  simp only [Nat.pow_eq]
  push_cast
  rw [mul_assoc, mul_comm (den : ℚ)]

theorem scaled_pos (hden : 0 < den) (e : ℤ) : 0 < den * Nat.pow 2 e.toNat :=
  Nat.mul_pos hden (Nat.pow_pos Nat.two_pos)

/-- A mantissa is rounded to 53 bits, or to the number right after them. -/
theorem roundedMantissa_le (hnum : num ≠ 0) (hden : 0 < den) :
    roundedMantissa num den ≤ 2 ^ 53 := by
  have he := exponentOf_eq (Nat.pos_of_ne_zero hnum) hden
  have hpos : (0 : ℚ) < (num : ℚ) / den := by positivity
  -- the exponent is chosen so that the quotient lies below `2 ^ 53` steps of it
  have hlog : Int.log 2 ((num : ℚ) / den) < exponentOf num den + 53 := by omega
  have hlt := (Int.lt_zpow_iff_log_lt Nat.one_lt_two hpos).mpr hlog
  have hle : (num : ℚ) / den ≤ (2 ^ 53 : ℕ) * (2 : ℚ) ^ exponentOf num den := by
    rw [Nat.cast_ofNat, zpow_add₀ two_ne_zero, mul_comm] at hlt
    exact_mod_cast hlt.le
  rw [← roundHalfEven_mul_self (2 ^ 53) (scaled_pos hden (exponentOf num den))]
  exact roundHalfEven_le_of_le _ ((scaled_le_iff hden _ _).mpr hle)

/-- Above the smallest scale a mantissa takes all of its 53 bits. -/
theorem le_roundedMantissa (hnum : num ≠ 0) (hden : 0 < den) (h : -1074 < exponentOf num den) :
    2 ^ 52 ≤ roundedMantissa num den := by
  have he := exponentOf_eq (Nat.pos_of_ne_zero hnum) hden
  have hpos : (0 : ℚ) < (num : ℚ) / den := by positivity
  -- the exponent is not the smallest, so it is the one chosen for the quotient
  have hlog : exponentOf num den + 52 ≤ Int.log 2 ((num : ℚ) / den) := by omega
  have hge := (Int.zpow_le_iff_le_log Nat.one_lt_two hpos).mpr hlog
  have hle : (2 ^ 52 : ℕ) * (2 : ℚ) ^ exponentOf num den ≤ (num : ℚ) / den := by
    rw [Nat.cast_ofNat, zpow_add₀ two_ne_zero, mul_comm] at hge
    exact_mod_cast hge
  rw [← roundHalfEven_mul_self (2 ^ 52) (scaled_pos hden (exponentOf num den))]
  exact roundHalfEven_le_of_le _ ((le_scaled_iff hden _ _).mpr hle)

theorem le_exponentOf (num den : Nat) : -1074 ≤ exponentOf num den := le_max_left _ _

/-- The mantissa after the greatest is the least one of the next scale. -/
theorem pow_carry (k : Nat) : 2 ^ 53 * 2 ^ k = 2 ^ 52 * 2 ^ (k + 1) := by ring

theorem roundedMagnitude_zero (den : Nat) : roundedMagnitude 0 den = 0 := by
  rw [roundedMagnitude, roundedMantissa, Nat.zero_mul, roundHalfEven]
  simp

/-- A mantissa that was rounded up to 54 bits is halved, at the next scale. -/
theorem nearest?_eq (negative : Bool) (hnum : num ≠ 0) :
    nearest? negative num den =
      if roundedMantissa num den = Nat.pow 2 53 then
        ofParts? negative (Nat.pow 2 52) (exponentOf num den + 1)
      else ofParts? negative (roundedMantissa num den) (exponentOf num den) := by
  rw [nearest?, if_neg hnum]
  rfl

/-- **What a quotient is rounded to**, unless it is beyond the range. -/
theorem magnitude_nearest? (negative : Bool) (hnum : num ≠ 0) (hden : 0 < den)
    (he : exponentOf num den ≤ 970) :
    ∃ d, nearest? negative num den = some d ∧ d.negative = negative ∧
      d.magnitude = roundedMagnitude num den := by
  have hle := roundedMantissa_le hnum hden
  have hlow := le_exponentOf num den
  rw [nearest?_eq negative hnum]
  split
  · rename_i hm
    have hc : Canonical (Nat.pow 2 52) (exponentOf num den + 1) :=
      ⟨by decide, by omega, by omega, .inl le_rfl⟩
    refine ⟨_, dif_pos hc, rfl, ?_⟩
    -- the carry doubles the step and halves the mantissa
    have hsucc : (exponentOf num den + 1 + 1074).toNat =
        (exponentOf num den + 1074).toNat + 1 := by omega
    rw [magnitude, roundedMagnitude, hm, hsucc]
    exact (pow_carry _).symm
  · rename_i hm
    have hc : Canonical (roundedMantissa num den) (exponentOf num den) := by
      refine ⟨lt_of_le_of_ne hle hm, hlow, by omega, ?_⟩
      -- h | at the smallest scale a mantissa may have fewer bits
      rcases hlow.lt_or_eq with h | h
      · exact .inl (le_roundedMantissa hnum hden h)
      · exact .inr h.symm
    exact ⟨_, dif_pos hc, rfl, rfl⟩

/-- **A greater quotient is not rounded to less.** -/
theorem roundedMagnitude_mono (hden : 0 < den) (hden' : 0 < den')
    (h : num * den' ≤ num' * den) : roundedMagnitude num den ≤ roundedMagnitude num' den' := by
  rcases eq_or_ne num 0 with rfl | hnum
  · rw [roundedMagnitude_zero]
    exact Nat.zero_le _
  have hnum' : num' ≠ 0 := by
    rintro rfl
    have hpos : 0 < num * den' := Nat.mul_pos (Nat.pos_of_ne_zero hnum) hden'
    omega
  have hratio : (num : ℚ) / den ≤ (num' : ℚ) / den' := by
    rw [div_le_div_iff₀ (by positivity) (by positivity)]
    exact_mod_cast h
  -- the greater quotient has no smaller scale
  have hexp : exponentOf num den ≤ exponentOf num' den' := by
    rw [exponentOf_eq (Nat.pos_of_ne_zero hnum) hden,
      exponentOf_eq (Nat.pos_of_ne_zero hnum') hden']
    have hlog := Int.log_mono_right (b := 2) (by positivity) hratio
    omega
  have hlow := le_exponentOf num den
  rw [roundedMagnitude, roundedMagnitude]
  simp only [Nat.pow_eq]
  rcases hexp.lt_or_eq with hlt | heq
  · -- the greater scale starts where the mantissas of the smaller one end
    have hsucc : (exponentOf num den + 1074).toNat + 1 ≤ (exponentOf num' den' + 1074).toNat := by
      omega
    calc roundedMantissa num den * 2 ^ (exponentOf num den + 1074).toNat
        ≤ 2 ^ 53 * 2 ^ (exponentOf num den + 1074).toNat :=
          Nat.mul_le_mul_right _ (roundedMantissa_le hnum hden)
      _ = 2 ^ 52 * 2 ^ ((exponentOf num den + 1074).toNat + 1) :=
          pow_carry _
      _ ≤ 2 ^ 52 * 2 ^ (exponentOf num' den' + 1074).toNat :=
          Nat.mul_le_mul_left _ (Nat.pow_le_pow_right Nat.two_pos hsucc)
      _ ≤ roundedMantissa num' den' * 2 ^ (exponentOf num' den' + 1074).toNat :=
          Nat.mul_le_mul_right _ (le_roundedMantissa hnum' hden' (by omega))
  · rw [heq]
    -- at one scale the mantissas are compared
    refine Nat.mul_le_mul_right _ ?_
    rw [roundedMantissa, roundedMantissa, heq]
    refine roundHalfEven_mono (scaled_pos hden _) (scaled_pos hden' _) ?_
    calc num * Nat.pow 2 (-exponentOf num' den').toNat *
          (den' * Nat.pow 2 (exponentOf num' den').toNat)
        = num * den' * (Nat.pow 2 (-exponentOf num' den').toNat *
            Nat.pow 2 (exponentOf num' den').toNat) := by ring
      _ ≤ num' * den * (Nat.pow 2 (-exponentOf num' den').toNat *
            Nat.pow 2 (exponentOf num' den').toNat) := Nat.mul_le_mul_right _ h
      _ = num' * Nat.pow 2 (-exponentOf num' den').toNat *
          (den * Nat.pow 2 (exponentOf num' den').toNat) := by ring

-- ---------------------------------------------------------------------------
-- Integers
-- ---------------------------------------------------------------------------

/-- What an integer of 64 bits is rounded to. -/
theorem magnitude_ofInt? {n : ℤ} (h : n.natAbs ≤ 2 ^ 64) :
    ∃ d, ofInt? n = some d ∧ d.negative = decide (n < 0) ∧
      d.magnitude = roundedMagnitude n.natAbs 1 := by
  rcases eq_or_ne n 0 with rfl | hn
  · refine ⟨signedZero false, rfl, rfl, ?_⟩
    rw [Int.natAbs_zero, roundedMagnitude_zero, magnitude, signedZero, Nat.zero_mul]
  · have hnatAbs : n.natAbs ≠ 0 := Int.natAbs_ne_zero.mpr hn
    refine magnitude_nearest? _ hnatAbs Nat.one_pos ?_
    have hlog : Nat.log 2 n.natAbs < 65 := Nat.log_lt_of_lt_pow hnatAbs (by omega)
    rw [exponentOf_eq (Nat.pos_of_ne_zero hnatAbs) Nat.one_pos, Nat.cast_one, div_one,
      Int.log_natCast]
    omega

end Double

namespace Number

theorem IntegerRange.natAbs_le {n : ℤ} (h : IntegerRange n) : n.natAbs ≤ 2 ^ 64 := by
  obtain ⟨hlow, hhigh⟩ := h
  rw [Nat.pow_eq] at hlow hhigh
  omega

/-- **Integers of 64 bits are rounded in their order.** -/
theorem units_toDouble_mono {m n : ℤ} (hm : IntegerRange m) (hn : IntegerRange n) (h : m ≤ n) :
    (int m).toDouble.units ≤ (int n).toDouble.units := by
  obtain ⟨d, hd, hdneg, hdmag⟩ := Double.magnitude_ofInt? hm.natAbs_le
  obtain ⟨e, he, heneg, hemag⟩ := Double.magnitude_ofInt? hn.natAbs_le
  rw [toDouble, toDouble, hd, he, Option.getD_some, Option.getD_some, Double.units, Double.units,
    hdneg, heneg, hdmag, hemag]
  simp only [decide_eq_true_eq]
  have hmono {a b : Nat} (hab : a ≤ b) :
      Double.roundedMagnitude a 1 ≤ Double.roundedMagnitude b 1 :=
    Double.roundedMagnitude_mono Nat.one_pos Nat.one_pos (Nat.mul_le_mul_right 1 hab)
  rcases lt_or_ge m 0 with hm0 | hm0
  · rw [if_pos hm0]
    rcases lt_or_ge n 0 with hn0 | hn0
    · rw [if_pos hn0]
      -- below zero the order of the magnitudes is the other way
      have hle := hmono (a := n.natAbs) (b := m.natAbs) (by omega)
      omega
    · rw [if_neg hn0.not_gt]
      omega
  · rw [if_neg hm0.not_gt, if_neg (hm0.trans h).not_gt]
    exact_mod_cast hmono (by omega)

end Number

end DocStore
