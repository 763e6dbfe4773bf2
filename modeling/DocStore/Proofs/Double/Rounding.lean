import Mathlib.Algebra.Order.Field.Power
import Mathlib.Data.Int.Log
import Mathlib.Data.Rat.Floor
import Mathlib.Tactic.FieldSimp
import Mathlib.Tactic.Linarith
import Mathlib.Tactic.Positivity
import Mathlib.Tactic.Ring
import DocStore.Double.Decimal
/-!
# Rounding to a double

`Double.nearest?` answers from the value of a quotient alone. The exponent it rounds at is the
binary scale of the quotient (`exponentOf_eq`), so two spellings of one quotient are rounded to the
same double, and a quotient that is a double already is that double.

* `nearest?_congr`: equal quotients have the same nearest double.
* `nearest?_exact`: the value of a double is rounded to the double itself.
* `ofInt?_exact`: a whole number that 53 bits hold is its own double.
* `nearest?_overflow` and `nearest?_underflow`: what lies far outside the range.
-/

namespace DocStore.Double

-- ---------------------------------------------------------------------------
-- The binary scale of a quotient
-- ---------------------------------------------------------------------------

/-- A power is a quotient of two powers, of which one is `1`. -/
theorem zpow_eq_toNat_div (b : ℚ) (z : ℤ) : b ^ z = b ^ z.toNat / b ^ (-z).toNat := by
  rcases le_total 0 z with h | h
  · obtain ⟨n, rfl⟩ := Int.eq_ofNat_of_zero_le h
    simp
  · obtain ⟨n, rfl⟩ := Int.exists_eq_neg_ofNat h
    simp

/-- The binary scale of a quotient is that of the leading bits, or one less. -/
theorem log_div_bounds {num den : Nat} (hnum : 0 < num) (hden : 0 < den) :
    (num.log2 : ℤ) - den.log2 - 1 ≤ Int.log 2 ((num : ℚ) / den) ∧
      Int.log 2 ((num : ℚ) / den) ≤ (num.log2 : ℤ) - den.log2 := by
  have hn : (0 : ℚ) < num := by exact_mod_cast hnum
  have hd : (0 : ℚ) < den := by exact_mod_cast hden
  -- each number lies between the power of its leading bit and the next one
  have hnlow : ((2 : ℕ) : ℚ) ^ (num.log2 : ℤ) ≤ num := by
    exact_mod_cast Nat.log2_self_le hnum.ne'
  have hnhigh : (num : ℚ) < ((2 : ℕ) : ℚ) ^ ((num.log2 : ℤ) + 1) := by
    exact_mod_cast Nat.lt_log2_self
  have hdlow : ((2 : ℕ) : ℚ) ^ (den.log2 : ℤ) ≤ den := by
    exact_mod_cast Nat.log2_self_le hden.ne'
  have hdhigh : (den : ℚ) < ((2 : ℕ) : ℚ) ^ ((den.log2 : ℤ) + 1) := by
    exact_mod_cast Nat.lt_log2_self
  have h2 : ((2 : ℕ) : ℚ) ≠ 0 := by norm_num
  constructor
  · rw [← Int.zpow_le_iff_le_log (by norm_num) (div_pos hn hd), le_div_iff₀ hd]
    calc ((2 : ℕ) : ℚ) ^ ((num.log2 : ℤ) - den.log2 - 1) * den
        ≤ ((2 : ℕ) : ℚ) ^ ((num.log2 : ℤ) - den.log2 - 1) * ((2 : ℕ) : ℚ) ^ ((den.log2 : ℤ) + 1) :=
          mul_le_mul_of_nonneg_left hdhigh.le (by positivity)
      _ = ((2 : ℕ) : ℚ) ^ (num.log2 : ℤ) := by rw [← zpow_add₀ h2]; congr 1; ring
      _ ≤ num := hnlow
  · rw [← Int.lt_add_one_iff, ← Int.lt_zpow_iff_log_lt (by norm_num) (div_pos hn hd),
      div_lt_iff₀ hd]
    calc (num : ℚ) < ((2 : ℕ) : ℚ) ^ ((num.log2 : ℤ) + 1) := hnhigh
      _ = ((2 : ℕ) : ℚ) ^ ((num.log2 : ℤ) - den.log2 + 1) * ((2 : ℕ) : ℚ) ^ (den.log2 : ℤ) := by
          rw [← zpow_add₀ h2]; congr 1; ring
      _ ≤ ((2 : ℕ) : ℚ) ^ ((num.log2 : ℤ) - den.log2 + 1) * den :=
          mul_le_mul_of_nonneg_left hdlow (by positivity)

/-- **The scale of a quotient**: 52 bits below its leading bit, but not below the smallest. -/
theorem exponentOf_eq {num den : Nat} (hnum : 0 < num) (hden : 0 < den) :
    exponentOf num den = max (-1074) (Int.log 2 ((num : ℚ) / den) - 52) := by
  have hn : (0 : ℚ) < num := by exact_mod_cast hnum
  have hd : (0 : ℚ) < den := by exact_mod_cast hden
  obtain ⟨hlow, hhigh⟩ := log_div_bounds hnum hden
  -- the guess from the leading bits is right or one too large, which the comparison decides
  set guess : ℤ := (num.log2 : ℤ) - den.log2 - 52 with hguess
  have hfits : Nat.pow 2 52 * den * Nat.pow 2 guess.toNat ≤ num * Nat.pow 2 (-guess).toNat ↔
      guess + 52 ≤ Int.log 2 ((num : ℚ) / den) := by
    rw [← Int.zpow_le_iff_le_log (by norm_num) (div_pos hn hd), le_div_iff₀ hd,
      zpow_add₀ (by norm_num), zpow_eq_toNat_div]
    rw [div_mul_eq_mul_div, div_mul_eq_mul_div, div_le_iff₀ (by positivity)]
    simp only [Nat.pow_eq]
    rw [← Nat.cast_le (α := ℚ)]
    push_cast
    constructor <;> intro h <;> calc _ = _ := by ring
                                   _ ≤ _ := h
  unfold exponentOf
  simp only [← hguess, hfits]
  split <;> congr 1 <;> omega

/-- A common factor does not matter to rounding. -/
theorem roundHalfEven_mul_right (num den : Nat) {k : Nat} (hk : 0 < k) :
    roundHalfEven (num * k) (den * k) = roundHalfEven num den := by
  have hmod : 2 * (num % den * k) = 2 * (num % den) * k := by ring
  have hgt : (2 * (num % den) * k > den * k) ↔ (2 * (num % den) > den) :=
    Nat.mul_lt_mul_right hk
  have heq : (2 * (num % den) * k == den * k) = (2 * (num % den) == den) := by
    rw [Bool.eq_iff_iff, beq_iff_eq, beq_iff_eq, Nat.mul_left_inj hk.ne']
  unfold roundHalfEven
  simp only [Nat.mul_div_mul_right _ _ hk, Nat.mul_mod_mul_right, hmod, hgt, heq]

theorem roundHalfEven_congr {num den num' den' : Nat} (hden : 0 < den) (hden' : 0 < den')
    (h : num * den' = num' * den) : roundHalfEven num den = roundHalfEven num' den' := by
  rw [← roundHalfEven_mul_right num den hden', h, Nat.mul_comm den den',
    roundHalfEven_mul_right num' den' hden]

/-- An integer is rounded to itself. -/
theorem roundHalfEven_mul_self (m : Nat) {den : Nat} (hden : 0 < den) :
    roundHalfEven (m * den) den = m := by
  unfold roundHalfEven
  have h : ¬ 2 * 0 > den := by omega
  have h' : ¬ 2 * 0 = den := by omega
  simp [Nat.mul_div_cancel _ hden, Nat.mul_mod_left, hden.ne]

/-- Less than a half is rounded to zero. -/
theorem roundHalfEven_eq_zero {num den : Nat} (h : 2 * num < den) : roundHalfEven num den = 0 := by
  have hlt : num < den := by omega
  unfold roundHalfEven
  rw [Nat.div_eq_of_lt hlt, Nat.mod_eq_of_lt hlt]
  simp [show ¬ den < 2 * num by omega]

/-- **Equal quotients have the same nearest double.** -/
theorem nearest?_congr (negative : Bool) {num den num' den' : Nat} (hden : 0 < den)
    (hden' : 0 < den') (h : num * den' = num' * den) :
    nearest? negative num den = nearest? negative num' den' := by
  by_cases hnum : num = 0
  · have hnum' : num' = 0 := by
      subst hnum
      rw [Nat.zero_mul] at h
      rcases Nat.mul_eq_zero.mp h.symm with h0 | h0 <;> omega
    rw [hnum, hnum', nearest?, nearest?]
    simp
  · have hnum' : num' ≠ 0 := by
      rintro rfl
      rw [Nat.zero_mul] at h
      rcases Nat.mul_eq_zero.mp h with h0 | h0 <;> omega
    have hratio : (num : ℚ) / den = (num' : ℚ) / den' := by
      rw [div_eq_div_iff (by positivity) (by positivity)]
      exact_mod_cast h
    have he : exponentOf num den = exponentOf num' den' := by
      rw [exponentOf_eq (by omega) hden, exponentOf_eq (by omega) hden', hratio]
    -- whatever the scale, the scaled quotients are equal as well
    have hm : ∀ a b, roundHalfEven (num * Nat.pow 2 a) (den * Nat.pow 2 b) =
        roundHalfEven (num' * Nat.pow 2 a) (den' * Nat.pow 2 b) := by
      intro a b
      have hb : 0 < Nat.pow 2 b := Nat.pow_pos (by norm_num)
      apply roundHalfEven_congr (Nat.mul_pos hden hb) (Nat.mul_pos hden' hb)
      calc num * Nat.pow 2 a * (den' * Nat.pow 2 b)
          = num * den' * (Nat.pow 2 a * Nat.pow 2 b) := by ring
        _ = num' * den * (Nat.pow 2 a * Nat.pow 2 b) := by rw [h]
        _ = num' * Nat.pow 2 a * (den * Nat.pow 2 b) := by ring
    unfold nearest?
    simp only [hnum, hnum', if_false, he, hm]

-- ---------------------------------------------------------------------------
-- The exact value
-- ---------------------------------------------------------------------------

/-- The leading bit of a scaled mantissa is the mantissa's own, moved by the scale. -/
theorem log_mul_zpow {m : Nat} (hm : m ≠ 0) (e : ℤ) :
    Int.log 2 ((m : ℚ) * (2 : ℚ) ^ e) = m.log2 + e := by
  have hpos : (0 : ℚ) < (m : ℚ) * (2 : ℚ) ^ e := by positivity
  have h2 : (2 : ℚ) ≠ 0 := by norm_num
  have hlow : (2 : ℚ) ^ (m.log2 : ℤ) ≤ m := by exact_mod_cast Nat.log2_self_le hm
  have hhigh : (m : ℚ) < (2 : ℚ) ^ ((m.log2 : ℤ) + 1) := by exact_mod_cast Nat.lt_log2_self
  apply le_antisymm
  · rw [← Int.lt_add_one_iff, ← Int.lt_zpow_iff_log_lt (by norm_num) hpos]
    push_cast
    rw [show (m.log2 : ℤ) + e + 1 = (m.log2 : ℤ) + 1 + e by ring, zpow_add₀ h2]
    exact mul_lt_mul_of_pos_right hhigh (by positivity)
  · rw [← Int.zpow_le_iff_le_log (by norm_num) hpos]
    push_cast
    rw [zpow_add₀ h2]
    exact mul_le_mul_of_nonneg_right hlow (by positivity)

/-- The exact value of a double is rounded to the double itself. -/
theorem nearest?_exact (d : Double) (hm : d.mantissa ≠ 0) :
    nearest? d.negative (d.mantissa * Nat.pow 2 d.exponent.toNat)
      (Nat.pow 2 (-d.exponent).toNat) = some d := by
  obtain ⟨negative, m, e, hc⟩ := d
  obtain ⟨hm53, hlow, hhigh, hlead⟩ := id hc
  rw [Nat.pow_eq] at hm53 hlead
  simp only [Nat.pow_eq] at hm ⊢
  have hnum : 0 < m * 2 ^ e.toNat := by positivity
  have hden : 0 < 2 ^ (-e).toNat := by positivity
  have hratio : ((m * 2 ^ e.toNat : ℕ) : ℚ) / ((2 ^ (-e).toNat : ℕ) : ℚ) = m * (2 : ℚ) ^ e := by
    rw [zpow_eq_toNat_div]
    push_cast
    ring
  have hlog : m.log2 ≤ 52 := by
    have := (Nat.log2_lt hm).mpr hm53
    omega
  -- the quotient is rounded at the double's own scale
  have he : exponentOf (m * 2 ^ e.toNat) (2 ^ (-e).toNat) = e := by
    rw [exponentOf_eq hnum hden, hratio, log_mul_zpow hm]
    rcases hlead with hlead | hlead
    · have : 52 ≤ m.log2 := (Nat.le_log2 hm).mpr hlead
      omega
    · omega
  -- at that scale it is the mantissa already
  have hround :
      roundHalfEven (m * 2 ^ e.toNat * 2 ^ (-e).toNat) (2 ^ (-e).toNat * 2 ^ e.toNat) = m := by
    rw [show m * 2 ^ e.toNat * 2 ^ (-e).toNat = m * (2 ^ (-e).toNat * 2 ^ e.toNat) by ring]
    exact roundHalfEven_mul_self m (by positivity)
  have hne : m ≠ 2 ^ 53 := by omega
  unfold nearest?
  simp only [Nat.pow_eq, hnum.ne', if_false, he, hround, hne]
  rw [ofParts?, dif_pos hc]

-- ---------------------------------------------------------------------------
-- Whole numbers
-- ---------------------------------------------------------------------------

/-- The canonical form of a whole number of at most 53 bits, or of the one after them. The steps it is
counted in stay a variable, so that their power is never computed. -/
theorem exists_canonical {m : Nat} (hm : m ≠ 0) (h : m ≤ Nat.pow 2 53) :
    ∃ (mantissa : Nat) (e : ℤ), Canonical mantissa e ∧ mantissa ≠ 0 ∧
      m * 2 ^ (-e).toNat = mantissa * 2 ^ e.toNat ∧
        ∀ steps : ℕ, 52 ≤ steps →
          mantissa * Nat.pow 2 (e + steps).toNat = m * Nat.pow 2 steps := by
  simp only [Nat.pow_eq] at h ⊢
  -- `2 ^ 53` has one bit too many and is halved; all others are moved up to 53 bits
  rcases h.eq_or_lt with rfl | hlt
  · refine ⟨2 ^ 52, 1, by decide, by norm_num, by norm_num, fun steps _ => ?_⟩
    rw [show ((1 : ℤ) + steps).toNat = steps + 1 by omega, pow_succ 2 steps]
    ring
  · have hlog : m.log2 ≤ 52 := by
      have := (Nat.log2_lt hm).mpr hlt
      omega
    obtain ⟨k, hk⟩ : ∃ k, m.log2 + k = 52 := ⟨52 - m.log2, by omega⟩
    refine ⟨m * 2 ^ k, -(k : ℤ), ⟨?_, by omega, by omega, Or.inl ?_⟩, by positivity, by simp,
      fun steps hsteps => ?_⟩
    · calc m * 2 ^ k < 2 ^ (m.log2 + 1) * 2 ^ k :=
            Nat.mul_lt_mul_of_pos_right Nat.lt_log2_self (by positivity)
        _ = 2 ^ 53 := by rw [← pow_add, show m.log2 + 1 + k = 53 by omega]
    · calc 2 ^ 52 = 2 ^ m.log2 * 2 ^ k := by rw [← pow_add, hk]
        _ ≤ m * 2 ^ k := Nat.mul_le_mul_right _ (Nat.log2_self_le hm)
    · rw [Nat.mul_assoc, ← pow_add, show k + (-(k : ℤ) + steps).toNat = steps by omega]

/-- A double counts its steps with its sign. -/
theorem units_of_magnitude {d : Double} {n : ℤ} {step : ℕ} (hneg : d.negative = decide (n < 0))
    (h : d.magnitude = n.natAbs * step) : d.units = n * step := by
  rw [units, h, hneg, Int.natCast_mul]
  by_cases hn : n < 0
  · rw [if_pos (decide_eq_true hn), ← Int.neg_mul, Int.ofNat_natAbs_of_nonpos hn.le, Int.neg_neg]
  · rw [if_neg (by simpa using hn), Int.natAbs_of_nonneg (by omega)]

/-- **A whole number that 53 bits hold is its own double**, and so is the one after them. -/
theorem ofInt?_exact {n : ℤ} (h : n.natAbs ≤ Nat.pow 2 53) {k : ℕ} (hk : (k : ℤ) = 1074) :
    ∃ d, ofInt? n = some d ∧ d.units = n * (Nat.pow 2 k : ℕ) := by
  by_cases hn : n = 0
  · refine ⟨signedZero false, by rw [hn]; rfl, ?_⟩
    rw [hn, Int.zero_mul]
    rfl
  obtain ⟨mantissa, e, hc, hm, hsame, hmagnitude⟩ := exists_canonical (by omega) h
  refine ⟨⟨n < 0, mantissa, e, hc⟩, ?_, units_of_magnitude rfl ?_⟩
  · rw [← nearest?_exact ⟨n < 0, mantissa, e, hc⟩ hm]
    exact nearest?_congr _ Nat.one_pos (Nat.pow_pos Nat.two_pos) (by simpa using hsame)
  · rw [magnitude, ← hk]
    exact hmagnitude k (by omega)

-- ---------------------------------------------------------------------------
-- Far beyond the range
-- ---------------------------------------------------------------------------

/-- A quotient of at least `2 ^ 1100` is beyond all doubles. -/
theorem nearest?_overflow (negative : Bool) {num den : Nat} (hden : 0 < den)
    (h : (2 : ℚ) ^ (1100 : ℤ) ≤ (num : ℚ) / den) : nearest? negative num den = none := by
  have hnum : num ≠ 0 := by
    rintro rfl
    have : (0 : ℚ) < (2 : ℚ) ^ (1100 : ℤ) := by positivity
    rw [Nat.cast_zero, zero_div] at h
    exact absurd h (not_le.mpr this)
  have hpos : (0 : ℚ) < (num : ℚ) / den := by positivity
  have hlog : 1100 ≤ Int.log 2 ((num : ℚ) / den) :=
    (Int.zpow_le_iff_le_log (by norm_num) hpos).mp (by exact_mod_cast h)
  have he : 971 < exponentOf num den := by
    rw [exponentOf_eq (by omega) hden]
    omega
  -- there is no double of so large a scale, whether or not the mantissa carries
  have hparts : ∀ m e, 971 < e → ofParts? negative m e = none := by
    intro m e hlt
    rw [ofParts?, dif_neg]
    rintro ⟨_, _, hle, _⟩
    omega
  unfold nearest?
  simp only [hnum, if_false]
  split
  · exact hparts _ _ (by omega)
  · exact hparts _ _ he

/-- Less than half a step is rounded to no step. -/
theorem roundHalfEven_scaled_eq_zero {num den k : Nat} (hden : 0 < den)
    (h : (num : ℚ) / den < (2 : ℚ) ^ (-((k : ℤ) + 1))) :
    roundHalfEven (num * Nat.pow 2 k) (den * Nat.pow 2 0) = 0 := by
  rw [zpow_neg, div_lt_iff₀ (by positivity), inv_mul_eq_div, lt_div_iff₀ (by positivity)] at h
  have h' : num * 2 ^ (k + 1) < den := by exact_mod_cast h
  apply roundHalfEven_eq_zero
  simp only [Nat.pow_eq, pow_zero, Nat.mul_one]
  calc 2 * (num * 2 ^ k) = num * 2 ^ (k + 1) := by ring
    _ < den := h'

/-- A quotient below `2 ^ -1075` is rounded to zero. -/
theorem nearest?_underflow (negative : Bool) {num den : Nat} (hden : 0 < den)
    (h : (num : ℚ) / den < (2 : ℚ) ^ (-1075 : ℤ)) :
    nearest? negative num den = some (signedZero negative) := by
  by_cases hnum : num = 0
  · rw [nearest?, if_pos hnum]
  have hpos : (0 : ℚ) < (num : ℚ) / den := by positivity
  have hlog : Int.log 2 ((num : ℚ) / den) < -1075 :=
    (Int.lt_zpow_iff_log_lt (by norm_num) hpos).mp (by exact_mod_cast h)
  have he : exponentOf num den = -1074 := by
    rw [exponentOf_eq (by omega) hden]
    omega
  -- the number of steps stays a variable, so that its power is never computed
  obtain ⟨k, hk⟩ : ∃ k : ℕ, (k : ℤ) = 1074 := ⟨1074, rfl⟩
  have hneg : (-exponentOf num den).toNat = k := by omega
  have hzero : (exponentOf num den).toNat = 0 := by omega
  have hround : roundHalfEven (num * Nat.pow 2 k) (den * Nat.pow 2 0) = 0 := by
    apply roundHalfEven_scaled_eq_zero hden
    rw [hk]
    exact h
  unfold nearest?
  simp only [hnum, if_false, hneg, hzero, hround]
  rw [he]
  rfl

end DocStore.Double
