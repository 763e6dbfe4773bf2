import DocStore.Json.Equality
/-!
# Schemas

A schema declares the fields of a collection in order, and says whether its records carry
timestamps. Field names are distinct, which is part of the type: declaring a name again replaces
its declaration and keeps its place.
-/

namespace DocStore

/-- The type of a field. A type with any other name can be declared, and no value has it. -/
inductive FieldType where
  | string | number | boolean | array
  | unsupported (name : String)
deriving DecidableEq

namespace FieldType

def name : FieldType → String
  | string => "string"
  | number => "number"
  | boolean => "boolean"
  | array => "array"
  | unsupported name => name

/-- The type a name stands for. -/
def ofName (name : String) : FieldType :=
  if name = "string" then string
  else if name = "number" then number
  else if name = "boolean" then boolean
  else if name = "array" then array
  else unsupported name

/-- The kind of value a field of this type holds, if the type is supported. -/
def kind? : FieldType → Option Json.Kind
  | string => some .string
  | number => some .number
  | boolean => some .boolean
  | array => some .array
  | unsupported _ => none

end FieldType

/-- The declaration of a field. -/
structure FieldSpec where
  type : FieldType
  required : Bool
  /-- The value of the field in records that leave it out. -/
  default? : Option Json
  unique : Bool
  /-- The field holds the id of a record. -/
  reference : Bool

namespace FieldSpec

/-- A field of this type without any further rule. -/
def plain (type : FieldType) : FieldSpec := ⟨type, false, none, false, false⟩

/-- Whether two declarations say the same. Defaults compare with integers and floats apart. -/
def same (a b : FieldSpec) : Bool :=
  a.type == b.type && a.required == b.required && a.unique == b.unique &&
    a.reference == b.reference &&
    match a.default?, b.default? with
    | none, none => true
    | some v, some w => Json.sameText v w
    | _, _ => false

end FieldSpec

/-- The declared fields of a collection, and whether its records carry timestamps. -/
structure Schema where
  fields : Fields FieldSpec
  timestamps : Bool
  distinct : Fields.Distinct fields

namespace Schema

/-- No field is declared. -/
def empty (timestamps : Bool) : Schema := ⟨[], timestamps, Fields.distinct_nil⟩

instance : Inhabited Schema := ⟨empty false⟩

/-- Declares a field, or replaces its declaration. -/
def add (s : Schema) (name : String) (spec : FieldSpec) : Schema :=
  { s with fields := Fields.set s.fields name spec
           distinct := Fields.distinct_set s.distinct name spec }

def setTimestamps (s : Schema) (enabled : Bool) : Schema := { s with timestamps := enabled }

/-- The declaration of a field. -/
def get? (s : Schema) (name : String) : Option FieldSpec := Fields.get? s.fields name

def declares (s : Schema) (name : String) : Bool := (s.get? name).isSome

/-- Whether two schemas declare the same fields in the same order. -/
def same (a b : Schema) : Bool :=
  a.timestamps == b.timestamps && a.fields.length == b.fields.length &&
    (a.fields.zip b.fields).all fun (x, y) => x.1 == y.1 && x.2.same y.2

end Schema

end DocStore
