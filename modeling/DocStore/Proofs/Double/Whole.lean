import DocStore.Json.Equality
import DocStore.Proofs.Double.Rounding
/-!
# Whole numbers among doubles

A sum of whole numbers is exact as long as doubles hold every whole number of its size. In JSON a
whole number has two forms, an integer and a float; `Number.IsWhole` is its value in either.

* `add?_of_whole`: a sum of whole numbers is rounded as an integer is.
* `add?_exact`: within 53 bits it is not rounded at all.
* `sameValue_int_iff`: the numbers that equal a small integer.
-/

namespace DocStore

namespace Double

variable {a b d : Double} {m n : ℤ}

/-- The steps in a whole number; how many there are in one stays a variable, so that the power is
never computed. -/
theorem toInt?_eq_some_iff {k : ℕ} (hk : k = 1074) :
    d.toInt? = some n ↔ d.units = n * (Nat.pow 2 k : ℕ) := by
  have hstep : ((Nat.pow 2 k : ℕ) : ℤ) ≠ 0 :=
    Int.natCast_ne_zero.mpr (Nat.pow_pos Nat.two_pos).ne'
  rw [toInt?, ← hk, Option.ite_none_right_eq_some, Option.some.injEq, ← Int.dvd_iff_emod_eq_zero]
  constructor
  · rintro ⟨hdvd, rfl⟩
    exact (Int.ediv_mul_cancel hdvd).symm
  · intro h
    rw [h]
    exact ⟨Int.dvd_mul_left _ _, Int.mul_ediv_cancel _ hstep⟩

theorem toInt?_signedZero (negative : Bool) : (signedZero negative).toInt? = some 0 := by
  obtain ⟨k, hk⟩ : ∃ k, k = 1074 := ⟨1074, rfl⟩
  rw [toInt?_eq_some_iff hk, Int.zero_mul]
  cases negative <;> rfl

/-- An integer of 53 bits is the value of the double it is rounded to. -/
theorem toInt?_ofInt? (hn : n.natAbs ≤ Nat.pow 2 53) :
    ∃ d, ofInt? n = some d ∧ d.toInt? = some n := by
  obtain ⟨k, hk⟩ : ∃ k, k = 1074 := ⟨1074, rfl⟩
  obtain ⟨d, hd, hunits⟩ := ofInt?_exact hn (congrArg Int.ofNat hk)
  exact ⟨d, hd, (toInt?_eq_some_iff hk).mpr hunits⟩

/-- A sum of whole numbers is rounded as an integer is. -/
theorem add?_of_whole (ha : a.toInt? = some m) (hb : b.toInt? = some n) (hsum : m + n ≠ 0) :
    add? a b = ofInt? (m + n) := by
  obtain ⟨k, hk⟩ : ∃ k, k = 1074 := ⟨1074, rfl⟩
  have hpos : 0 < Nat.pow 2 k := Nat.pow_pos Nat.two_pos
  have hstep : (0 : ℤ) < Nat.pow 2 k := Int.natCast_pos.mpr hpos
  have hneg := Int.mul_lt_mul_right hstep (b := m + n) (c := 0)
  rw [Int.zero_mul] at hneg
  rw [toInt?_eq_some_iff hk] at ha hb
  rw [add?, ofInt?, ha, hb, ← hk, ← Int.add_mul, if_neg (mul_ne_zero hsum hstep.ne'),
    decide_eq_decide.mpr hneg, Int.natAbs_mul, Int.natAbs_natCast]
  exact nearest?_congr _ hpos Nat.one_pos (Nat.mul_one _)

/-- Opposite numbers add up to a zero, which is negative if both of them are. -/
theorem add?_of_opposite (ha : a.toInt? = some m) (hb : b.toInt? = some n) (hsum : m + n = 0) :
    add? a b = some (signedZero (a.negative && b.negative)) := by
  obtain ⟨k, hk⟩ : ∃ k, k = 1074 := ⟨1074, rfl⟩
  rw [toInt?_eq_some_iff hk] at ha hb
  rw [add?, ha, hb, ← Int.add_mul, hsum, Int.zero_mul]
  exact if_pos rfl

/-- **A sum of whole numbers is exact** where doubles hold every whole number. -/
theorem add?_exact (ha : a.toInt? = some m) (hb : b.toInt? = some n)
    (hsum : (m + n).natAbs ≤ Nat.pow 2 53) :
    ∃ d, add? a b = some d ∧ d.toInt? = some (m + n) := by
  by_cases hzero : m + n = 0
  · exact ⟨_, add?_of_opposite ha hb hzero, hzero ▸ toInt?_signedZero _⟩
  · rw [add?_of_whole ha hb hzero]
    exact toInt?_ofInt? hsum

end Double

namespace Number

variable {x : Number} {n : ℤ}

/-- The number has the value of an integer, in either form. -/
def IsWhole : Number → ℤ → Prop
  | int i, n => i = n
  | float d, n => d.toInt? = some n

instance : ∀ (x : Number) (n : ℤ), Decidable (x.IsWhole n)
  | int i, n => inferInstanceAs (Decidable (i = n))
  | float d, n => inferInstanceAs (Decidable (d.toInt? = some n))

theorem IsWhole.unique {m : ℤ} (hm : x.IsWhole m) (hn : x.IsWhole n) : m = n := by
  cases x with
  | int i => exact hm.symm.trans hn
  | float d => exact Option.some.inj (hm.symm.trans hn)

/-- A small integer keeps its value as a double. -/
theorem IsWhole.toDouble (h : x.IsWhole n) (hn : n.natAbs ≤ Nat.pow 2 53) :
    x.toDouble.toInt? = some n := by
  cases x with
  | float d => exact h
  | int i =>
    obtain rfl : i = n := h
    obtain ⟨d, hd, hwhole⟩ := Double.toInt?_ofInt? hn
    rw [Number.toDouble, hd]
    exact hwhole

/-- The numbers that equal an integer of at most 53 bits. -/
theorem sameValue_int_iff (hn : n.natAbs ≤ Nat.pow 2 53) :
    x.sameValue (.int n) = true ↔ x.IsWhole n := by
  cases x with
  | int i => exact beq_iff_eq
  | float d =>
    obtain ⟨k, hk⟩ : ∃ k, k = 1074 := ⟨1074, rfl⟩
    obtain ⟨e, he, hunits⟩ := Double.ofInt?_exact hn (congrArg Int.ofNat hk)
    have hfloat : (float d).sameValue (int n) = d.sameValue (int n).toDouble := rfl
    rw [hfloat, Number.toDouble, he, Option.getD_some, Double.sameValue, beq_iff_eq, hunits,
      IsWhole, Double.toInt?_eq_some_iff hk]

end Number

end DocStore
