import DocStore.Schema.Basic
/-!
# The written form of a schema

A schema is written as an object with the entries `timestamps` and `fields`; each field is
described by an object with the entries `type`, `required`, `default`, `unique` and `ref`. Reading
fills in what is missing and ignores entries it does not know. A list stands for an object whose
entries are given by place. A type has to be given, and a default of null is no default.
-/

namespace DocStore

namespace Schema

/-- The entries of a description, given by name or, in a list, by place. -/
def entries? (names : List String) : Json → Option (Fields Json)
  | .object members => some members
  | .array items => if items.length ≤ names.length then some (names.zip items) else none
  | _ => none

/-- A flag that is off unless given. -/
def flag? (entries : Fields Json) (name : String) : Option Bool :=
  match Fields.get? entries name with
  | none => some false
  | some v => v.asBool?

/-- A default value, if one is given. -/
def givenDefault (entries : Fields Json) : Option Json :=
  (Fields.get? entries "default").filter fun v => !v.isNull

/-- The type that a description names: by a text or, if it is a supported one, by an object with the
name as its only member and null as the value. -/
def typeOf? : Json → Option FieldType
  | .string name => some (FieldType.ofName name)
  | .object [(name, .null)] => (some (FieldType.ofName name)).filter fun t => t.kind?.isSome
  | _ => none

/-- The field that a description declares. -/
def decodeField (v : Json) : Option FieldSpec := do
  let entries ← entries? ["type", "required", "default", "unique", "ref"] v
  let type ← (Fields.get? entries "type").bind typeOf?
  -- a missing flag is off, but one that is no truth value is a fault
  let required ← flag? entries "required"
  let unique ← flag? entries "unique"
  let reference ← flag? entries "ref"
  some ⟨type, required, givenDefault entries, unique, reference⟩

/-- Why a description is no schema. -/
inductive DecodeFault where
  /-- The description of this field is at fault. -/
  | field (name : String)
  /-- The fault lies outside the descriptions of fields. -/
  | outline

/-- Declares the described fields in turn. -/
def addAll (s : Schema) : List (String × Json) → Except DecodeFault Schema
  | [] => .ok s
  | (name, v) :: rest =>
    match decodeField v with
    | some spec => addAll (s.add name spec) rest
    | none => .error (.field name)

/-- The described fields of a collection. -/
def fieldsOf? (entries : Fields Json) : Option (Fields Json) :=
  match Fields.get? entries "fields" with
  | none => some []
  | some v => v.asObject?

/-- The schema that a description stands for. -/
def decode (v : Json) : Except DecodeFault Schema :=
  match entries? ["timestamps", "fields"] v with
  | none => .error .outline
  | some entries =>
    match flag? entries "timestamps", fieldsOf? entries with
    | some timestamps, some fields => addAll (empty timestamps) fields
    | _, _ => .error .outline

/-- The description of a field. -/
def encodeField (spec : FieldSpec) : Json :=
  .object <|
    [("type", .string spec.type.name), ("required", .bool spec.required)] ++
    -- a default of null is written, and read back as no default
    (match spec.default? with
      | some v => [("default", v)]
      | none => []) ++
    [("unique", .bool spec.unique), ("ref", .bool spec.reference)]

/-- The description of a schema. -/
def encode (s : Schema) : Json :=
  .object [
    ("timestamps", .bool s.timestamps),
    ("fields", .object (s.fields.map fun (name, spec) => (name, encodeField spec)))]

end Schema

end DocStore
