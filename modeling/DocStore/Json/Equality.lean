import DocStore.Json.Basic
/-!
# Equality of JSON values

Two notions of equality, both blind to the order of an object's members. They differ in the
comparison of numbers, which is a parameter of `Json.equalBy`.

* `Json.sameValue`: numbers compare by value, so `1` equals `1.0`. Queries, unique fields and
  grouping use it.
* `Json.sameText`: an integer never equals a floating-point number. Schemas compare their defaults
  with it.
-/

namespace DocStore

namespace Number

/-- Integers compare exactly; as soon as one side is a double, both compare as doubles. -/
def sameValue : Number → Number → Bool
  | int a, int b => a == b
  | a, b => a.toDouble.sameValue b.toDouble

/-- Integers and doubles are apart; the two zeros are not. -/
def sameText : Number → Number → Bool
  | int a, int b => a == b
  | float a, float b => a.sameValue b
  | _, _ => false

end Number

namespace Json

mutual

/-- Equality up to the order of members, with numbers compared by `eq`. -/
def equalBy (eq : Number → Number → Bool) : Json → Json → Bool
  | null, null => true
  | bool a, bool b => a == b
  | number a, number b => eq a b
  | string a, string b => a == b
  | array a, array b => equalItems eq a b
  -- as many members and none repeated, so one direction is enough
  | object a, object b => a.length == b.length && equalMembers eq a b
  | _, _ => false

/-- The items are equal one by one, and there are as many on both sides. -/
def equalItems (eq : Number → Number → Bool) : List Json → List Json → Bool
  | [], [] => true
  | a :: as, b :: bs => equalBy eq a b && equalItems eq as bs
  | _, _ => false

/-- Every member on the left has an equal one of its name on the right. -/
def equalMembers (eq : Number → Number → Bool) : List (String × Json) → List (String × Json) → Bool
  | [], _ => true
  | (name, a) :: rest, bs =>
    (match Fields.get? bs name with
      | some b => equalBy eq a b
      | none => false) && equalMembers eq rest bs

end

/-- Equality with numbers compared by value. -/
def sameValue : Json → Json → Bool := equalBy Number.sameValue

/-- Equality with integers and floating-point numbers apart. -/
def sameText : Json → Json → Bool := equalBy Number.sameText

end Json

end DocStore
