import DocStore.Double.Basic
import DocStore.Fields
/-!
# JSON values

Objects keep the order of their members, and integers and floating-point numbers are apart (`1` is
not written `1.0`). The values the store handles are `Json.WellFormed`: distinct member names, and
integers of 64 bits, signed or unsigned.
-/

namespace DocStore

/-- A number as JSON text tells it apart: an integer, or a double. -/
inductive Number where
  | int (value : Int)
  | float (value : Double)
deriving DecidableEq

namespace Number

/-- The integers a JSON number holds exactly: those of 64 bits, signed or unsigned. -/
def IntegerRange (n : Int) : Prop := -Nat.pow 2 63 ≤ n ∧ n < Nat.pow 2 64

instance (n : Int) : Decidable (IntegerRange n) := inferInstanceAs (Decidable (_ ∧ _))

/-- The number as a double, rounded if it is an integer of more than 53 bits. -/
def toDouble : Number → Double
  | int n => (Double.ofInt? n).getD Double.zero
  | float d => d

end Number

/-- A JSON value. -/
inductive Json where
  | null
  | bool (value : Bool)
  | number (value : Number)
  | string (value : String)
  | array (items : List Json)
  | object (members : List (String × Json))

namespace Json

instance : Inhabited Json := ⟨null⟩

/-- An integer value. -/
def int (n : Int) : Json := number (.int n)

/-- A natural number as a value. -/
def nat (n : Nat) : Json := int n

/-- What kind of value it is. -/
inductive Kind where
  | null | boolean | number | string | array | object
deriving DecidableEq

/-- The word for a kind of value in messages. -/
def Kind.name : Kind → String
  | .null => "null"
  | .boolean => "boolean"
  | .number => "number"
  | .string => "string"
  | .array => "array"
  | .object => "object"

def kind : Json → Kind
  | null => .null
  | bool _ => .boolean
  | number _ => .number
  | string _ => .string
  | array _ => .array
  | object _ => .object

def isNull : Json → Bool
  | null => true
  | _ => false

def asBool? : Json → Option Bool
  | bool b => some b
  | _ => none

def asNumber? : Json → Option Number
  | number n => some n
  | _ => none

def asString? : Json → Option String
  | string s => some s
  | _ => none

def asArray? : Json → Option (List Json)
  | array items => some items
  | _ => none

def asObject? : Json → Option (Fields Json)
  | object members => some members
  | _ => none

/-- The value as an integer that is not negative. -/
def asNat? : Json → Option Nat
  | number (.int n) => if 0 ≤ n then some n.toNat else none
  | _ => none

/-- The value as a double. -/
def asDouble? (v : Json) : Option Double := v.asNumber?.map Number.toDouble

-- ---------------------------------------------------------------------------
-- Well-formed values
-- ---------------------------------------------------------------------------

mutual

/-- Member names are distinct at every depth, and integers have 64 bits. -/
def WellFormed : Json → Prop
  | null | bool _ | string _ | number (.float _) => True
  | number (.int n) => Number.IntegerRange n
  | array items => WellFormedItems items
  | object members => Fields.Distinct members ∧ WellFormedMembers members

/-- Every item is well-formed. -/
def WellFormedItems : List Json → Prop
  | [] => True
  | v :: rest => WellFormed v ∧ WellFormedItems rest

/-- Every member's value is well-formed. -/
def WellFormedMembers : List (String × Json) → Prop
  | [] => True
  | (_, v) :: rest => WellFormed v ∧ WellFormedMembers rest

end

mutual

/-- How many containers stand around the innermost value. -/
def depth : Json → Nat
  | null | bool _ | string _ | number _ => 0
  | array items => depthItems items + 1
  | object members => depthMembers members + 1

/-- The greatest depth among items. -/
def depthItems : List Json → Nat
  | [] => 0
  | v :: rest => max (depth v) (depthItems rest)

/-- The greatest depth among members. -/
def depthMembers : List (String × Json) → Nat
  | [] => 0
  | (_, v) :: rest => max (depth v) (depthMembers rest)

end

end Json

end DocStore
