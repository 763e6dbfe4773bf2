import DocStore.Proofs.Double.Monotone
import DocStore.Proofs.Double.Whole
import DocStore.Relational.Cell
import DocStore.Schema.Basic
import DocStore.Export
import Mathlib.Algebra.Order.Field.Basic
/-!
# What cells say of values

A number is a rational number, whether it stands in a value or in a cell. A value goes into a cell
in two steps, one that is the same for all columns and one by the affinity of the column, and what
comes of it says what the value said. There is one exception: a cell holds no integer from `2 ^ 63`
on, and the double that it holds instead need not have the same value.

* `Double.toInt?_eq_some_iff_value`: whole doubles by their values.
* `Cell.value?_toNumber`: a column for numbers keeps the value of a number.
* `Cell.denotes_convert`: the column for a field says what the field says.
* `Cell.convert_wide`: the exception.
-/

namespace DocStore

-- ---------------------------------------------------------------------------
-- Numbers
-- ---------------------------------------------------------------------------

namespace Double

variable {d : Double}

/-- The rational number that a double is. -/
def value (d : Double) : ℚ := (if d.negative then -1 else 1) * d.mantissa * 2 ^ d.exponent

/-- The value in steps; how many there are in one stays a variable, so that the power is never
computed. -/
theorem value_mul_steps {k : ℕ} (hk : k = 1074) : d.value * 2 ^ k = d.units := by
  have hpow : (2 : ℚ) ^ d.exponent * 2 ^ k = ((2 ^ (d.exponent + 1074).toNat : ℕ) : ℚ) := by
    have hlow := d.canonical.2.1
    rw [← zpow_natCast, ← zpow_add₀ two_ne_zero, hk]
    push_cast
    rw [← zpow_natCast]
    congr 1
    omega
  rw [value, mul_assoc, hpow, units, magnitude]
  cases d.negative with
  | true => simp
  | false => simp

/-- **A double is whole if its value is.** -/
theorem toInt?_eq_some_iff_value {n : ℤ} : d.toInt? = some n ↔ d.value = n := by
  obtain ⟨k, hk⟩ : ∃ k, k = 1074 := ⟨1074, rfl⟩
  have hstep : (2 : ℚ) ^ k ≠ 0 := pow_ne_zero k two_ne_zero
  rw [toInt?_eq_some_iff hk, ← mul_left_inj' hstep, value_mul_steps hk, Nat.pow_eq]
  exact_mod_cast Iff.rfl

end Double

/-- The rational number that a number is. -/
def Number.value : Number → ℚ
  | int n => n
  | float d => d.value

namespace Cell

/-- The rational number in a cell. -/
def value? : Cell → Option ℚ
  | integer n => some n
  | real d => some d.value
  | _ => none

/-- A cell says what a value of a record says: the same number, the same text, one for true and zero
for false, and the compact text of a container. -/
def Denotes (c : Cell) : Json → Prop
  | .null => c = null
  | .bool b => c = integer (if b then 1 else 0)
  | .number x => c.value? = some x.value
  | .string s => c = text s
  | v => c = text v.compact

-- ---------------------------------------------------------------------------
-- Columns
-- ---------------------------------------------------------------------------

/-- A double that is made a cell keeps its value, as an integer or as it is. -/
theorem value?_ofReal (d : Double) : (ofReal d).value? = some d.value := by
  unfold ofReal
  split
  · rename_i n hn
    split
    · rw [value?, Double.toInt?_eq_some_iff_value.mp hn]
    · rfl
  · rfl

/-- **A column for numbers keeps the value of a number.** -/
theorem value?_toNumber {c : Cell} {x : ℚ} (h : c.value? = some x) :
    c.toNumber.value? = some x := by
  cases c with
  | integer n => exact h
  | real d =>
    rw [toNumber, value?_ofReal]
    exact h
  | _ => cases h

theorem value?_ofJson_float (d : Double) :
    (ofJson (.number (.float d))).value? = some d.value := rfl

theorem value?_ofJson_int {n : ℤ} (h : IntegerRange n) :
    (ofJson (.int n)).value? = some (n : ℚ) := by
  rw [Json.int, ofJson, if_pos h, value?]

/-- Integers that no cell holds as integers. -/
def Wide (v : Json) : Prop := ∃ n : ℤ, v = .int n ∧ Nat.pow 2 63 ≤ n

theorem integerRange_of_not_wide {n : ℤ} (hwf : (Json.int n).WellFormed) (h : ¬ Wide (.int n)) :
    IntegerRange n := by
  have hrange : Number.IntegerRange n := hwf
  exact ⟨hrange.1, Int.not_le.mp fun hle => h ⟨n, rfl, hle⟩⟩

/-- **The column for a field says what the field says.** -/
theorem denotes_convert {type : FieldType} {v : Json} (hkind : type.kind? = some v.kind)
    (hwf : v.WellFormed) (hnarrow : ¬ Wide v) : ((ofJson v).convert type.affinity).Denotes v := by
  cases type with
  | string =>
    cases v with
    | string s => exact rfl
    | _ => cases hkind
  | number =>
    cases v with
    -- a column for numbers turns whole doubles into integers, and the value stays
    | number x =>
      cases x with
      | int n => exact value?_toNumber (value?_ofJson_int (integerRange_of_not_wide hwf hnarrow))
      | float d => exact value?_toNumber (value?_ofJson_float d)
    | _ => cases hkind
  | boolean =>
    cases v with
    | bool b => exact rfl
    | _ => cases hkind
  | array =>
    cases v with
    | array items => exact rfl
    | _ => cases hkind
  | unsupported name => cases hkind

-- ---------------------------------------------------------------------------
-- Wide integers
-- ---------------------------------------------------------------------------

/-- The least wide integer is a double. -/
theorem toInt?_ofInt?_two_pow : (Double.ofInt? (Nat.pow 2 63)).bind Double.toInt? =
    some (Nat.pow 2 63) := by
  decide +kernel

/-- What a wide integer is rounded to is none that a cell holds as an integer. -/
theorem ofReal_of_wide {n : ℤ} {d : Double} (hrange : Number.IntegerRange n)
    (hwide : Nat.pow 2 63 ≤ n) (hd : Double.ofInt? n = some d) : ofReal d = real d := by
  -- the least wide integer is a double, and rounding keeps the order
  obtain ⟨k, hk⟩ : ∃ k, k = 1074 := ⟨1074, rfl⟩
  obtain ⟨least, hleast, hvalue⟩ := Option.bind_eq_some_iff.mp toInt?_ofInt?_two_pow
  have hmono := Number.units_toDouble_mono (m := Nat.pow 2 63) ⟨by decide, by decide⟩ hrange hwide
  rw [Number.toDouble, Number.toDouble, hleast, hd, Option.getD_some, Option.getD_some,
    (Double.toInt?_eq_some_iff hk).mp hvalue] at hmono
  unfold ofReal
  split
  · rename_i m hm
    rw [(Double.toInt?_eq_some_iff hk).mp hm] at hmono
    -- a whole double this large is out of the range of integers in cells
    have hle : (Nat.pow 2 63 : ℤ) ≤ m :=
      Int.le_of_mul_le_mul_right hmono (Int.natCast_pos.mpr (Nat.pow_pos Nat.two_pos))
    exact if_neg fun h => absurd h.2 (by omega)
  · rfl

/-- **A wide integer becomes the nearest double**, which says the same if it is that integer. -/
theorem convert_wide {n : ℤ} (hrange : Number.IntegerRange n) (hwide : Nat.pow 2 63 ≤ n) :
    ∃ d, Double.ofInt? n = some d ∧ (ofJson (.int n)).convert .numeric = real d ∧
      ((real d).Denotes (.int n) ↔ d.toInt? = some n) := by
  obtain ⟨d, hd, -, -⟩ := Double.magnitude_ofInt? hrange.natAbs_le
  refine ⟨d, hd, ?_, ?_⟩
  · have hnot : ¬ IntegerRange n := fun h => absurd h.2 (by omega)
    rw [Json.int, ofJson, if_neg hnot, Number.toDouble, hd, Option.getD_some]
    exact ofReal_of_wide hrange hwide hd
  · rw [Double.toInt?_eq_some_iff_value, Json.int, Denotes, value?, Option.some.injEq]
    rfl

end Cell

end DocStore
