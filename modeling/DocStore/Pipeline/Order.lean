import DocStore.Record
/-!
# The order of values

Sorting compares values of all kinds, and values that may be absent: absent and null first, then
numbers, strings, objects, arrays and booleans. Numbers compare as doubles, strings by code point,
false comes before true; any two objects are level, and so are any two arrays.
-/

namespace DocStore

namespace Json

/-- The place of a kind of value in the order. -/
def rank : Option Json → Nat
  | none | some null => 0
  | some (number _) => 1
  | some (string _) => 2
  | some (object _) => 3
  | some (array _) => 4
  | some (bool _) => 5

/-- Compares two values that may be absent. -/
def order (a b : Option Json) : Ordering :=
  match a, b with
  | some (number x), some (number y) => x.toDouble.order y.toDouble
  | some (string x), some (string y) => compare x y
  | some (bool x), some (bool y) => compare x y
  | _, _ => compare (rank a) (rank b)

end Json

end DocStore
