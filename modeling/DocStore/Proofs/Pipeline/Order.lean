import Mathlib.Data.Prod.Lex
import Mathlib.Data.String.Basic
import Mathlib.Order.Compare
import DocStore.Pipeline.Order
/-!
# The order of values is a total preorder

Values compare as their sort keys do: kind first, then the value of a number or a boolean, then the
text of a string. Sort keys are linearly ordered, so values are ordered totally, and what is level
need not be the same: two numbers that round to one double, two objects, null and nothing.

* `Before`: what stands before what, kind by kind.
* `order_eq_lt_iff`: the comparison answers by it.
* `order_eq_compare`: the comparison is that of sort keys.
-/

namespace DocStore.Json

/-- The kinds of values from first to last. -/
def kindsInOrder : List Kind := [.null, .number, .string, .object, .array, .boolean]

/-- The place of a kind of value; a value that is absent counts as null. -/
def kindPlace (v : Option Json) : Nat := kindsInOrder.idxOf (v.getD .null).kind

/-- What stands before what: values of an earlier kind, smaller numbers, strings whose code points
come first, and false before true. -/
inductive Before : Option Json → Option Json → Prop
  | kind {v w : Option Json} (h : kindPlace v < kindPlace w) : Before v w
  | number {m n : Number} (h : m.toDouble.units < n.toDouble.units) :
      Before (some (number m)) (some (number n))
  | string {s t : String} (h : s < t) : Before (some (string s)) (some (string t))
  | bool : Before (some (bool false)) (some (bool true))

/-- The rank of a value is the place of its kind. -/
theorem rank_eq_kindPlace (v : Option Json) : rank v = kindPlace v := by
  cases v with
  | none => rfl
  | some v => cases v <;> rfl

/-- **The comparison answers by what stands before what.** -/
theorem order_eq_lt_iff {v w : Option Json} : order v w = .lt ↔ Before v w := by
  unfold order
  split
  · rename_i m n
    rw [Double.order, compare_lt_iff_lt]
    refine ⟨.number, fun h => ?_⟩
    -- within one kind the places are equal, so only the values can tell
    cases h with
    | kind h => exact absurd h (lt_irrefl _)
    | number h => exact h
  · rename_i s t
    rw [compare_lt_iff_lt]
    refine ⟨.string, fun h => ?_⟩
    cases h with
    | kind h => exact absurd h (lt_irrefl _)
    | string h => exact h
  · rename_i b c
    rw [compare_lt_iff_lt]
    refine ⟨fun h => ?_, fun h => ?_⟩
    · obtain ⟨rfl, rfl⟩ := Bool.lt_iff.mp h
      exact .bool
    · cases h with
      | kind h => exact absurd h (lt_irrefl _)
      | bool => decide
  · rename_i hnumber hstring hbool
    rw [compare_lt_iff_lt, rank_eq_kindPlace, rank_eq_kindPlace]
    refine ⟨.kind, fun h => ?_⟩
    cases h with
    | kind h => exact h
    | number => exact absurd rfl (hnumber _ _ rfl)
    | string => exact absurd rfl (hstring _ _ rfl)
    | bool => exact absurd rfl (hbool _ _ rfl)

-- ---------------------------------------------------------------------------
-- Sort keys
-- ---------------------------------------------------------------------------

/-- What tells values of one kind apart: the size of a number or a boolean, the text of a string. -/
def payload : Option Json → ℤ ×ₗ String
  | some (number n) => toLex (n.toDouble.units, "")
  | some (string s) => toLex (0, s)
  | some (bool b) => toLex (b.toNat, "")
  | _ => toLex (0, "")

def sortKey (v : Option Json) : ℕ ×ₗ ℤ ×ₗ String := toLex (rank v, payload v)

/-- Pairs are compared by their first parts, and by the second where those are level. -/
theorem compare_toLex {α β : Type} [LinearOrder α] [LinearOrder β] (a a' : α) (b b' : β) :
    compare (toLex (a, b)) (toLex (a', b')) = (compare a a').then (compare b b') := by
  rw [Prod.Lex.compare_def]
  rfl

/-- Truth values compare as their numbers do. -/
theorem compare_toNat (b c : Bool) : compare (b.toNat : ℤ) c.toNat = compare b c := by
  cases b <;> cases c <;> rfl

/-- **Values compare as their sort keys do**, so the order is a total preorder. -/
theorem order_eq_compare (v w : Option Json) : order v w = compare (sortKey v) (sortKey w) := by
  rw [sortKey, sortKey, compare_toLex]
  unfold order
  split
  · -- two numbers, two strings, two truth values, and then all other pairs
    simp only [rank, payload, compare_toLex, Std.ReflCmp.compare_self, Ordering.then_eq,
      Ordering.eq_then]
    rfl
  · simp only [rank, payload, compare_toLex, Std.ReflCmp.compare_self, Ordering.eq_then]
  · simp only [rank, payload, compare_toLex, Std.ReflCmp.compare_self, Ordering.then_eq,
      Ordering.eq_then, compare_toNat]
  · rename_i hnumber hstring hbool
    -- values of one kind that is left have nothing to tell them apart
    cases hrank : compare (rank v) (rank w) with
    | lt => rfl
    | gt => rfl
    | eq =>
      rw [compare_eq_iff_eq] at hrank
      have hpayload : compare (payload v) (payload w) = .eq := by
        rw [compare_eq_iff_eq]
        rcases v with _ | _ | _ | _ | _ | _ | _ <;> rcases w with _ | _ | _ | _ | _ | _ | _ <;>
          simp_all [rank, payload]
      rw [hpayload]
      rfl

instance : Std.TransCmp order := by
  have h : order = compareOn sortKey := by
    funext v w
    exact order_eq_compare v w
  rw [h]
  infer_instance

end DocStore.Json
