import DocStore.Error
import DocStore.Record
import DocStore.Schema.Basic
/-!
# Validation

Before a record is stored it is sanitized, so that it holds declared fields only, and checked
against the schema and the records that are there already. The same checks run over a stored
collection to report records that no longer fit.

* A reference field without an id ends the check at once; all other broken rules are collected in
  the order in which the fields are declared.
* A unique value collides with the same field of another record, and with an earlier unique field
  of its own record. Values compare with `Json.sameValue`.
* A field of unsupported type breaks that rule only: its value is not compared.
-/

namespace DocStore

namespace Validation

/-- The number of characters of an id. -/
def idLength : Nat := 36

-- ---------------------------------------------------------------------------
-- Sanitizing
-- ---------------------------------------------------------------------------

/-- The value of a declared field: what is given, or the default if that is absent or null. -/
def sanitizedValue (input : Record) (name : String) (spec : FieldSpec) : Option Json :=
  -- the default is put in before the checks, so it is checked like a value that was given
  match Fields.get? input name with
  | some v => if v.isNull then spec.default? else some v
  | none => spec.default?

/-- The declared fields that have a value, in the order of declaration. -/
def sanitizeFields (schema : Schema) (input : Record) : Record :=
  schema.fields.filterMap fun (name, spec) =>
    (sanitizedValue input name spec).map fun v => (name, v)

/-- The record a caller's value stands for. -/
def sanitize (schema : Schema) (raw : Json) : Except StoreError Record :=
  match raw.asObject? with
  | some input => .ok (sanitizeFields schema input)
  | none => .error (.validation [.recordNotObject])

-- ---------------------------------------------------------------------------
-- Checking the fields of one record
-- ---------------------------------------------------------------------------

/-- Whether a value can be the id of a record: a string of the right length. -/
def isReference (v : Json) : Bool :=
  match v with
  | .string s => s.length == idLength
  | _ => false

/-- Whether another record holds the same value in this field. -/
def collides (others : List Record) (name : String) (value : Json) : Bool :=
  others.any fun other =>
    match Fields.get? other name with
    | some v => Json.sameValue v value
    | none => false

/-- The rule on a value's type, if it is broken. -/
def typeViolations (name : String) (spec : FieldSpec) (value : Json) : List Violation :=
  match spec.type.kind? with
  | some expected =>
    if value.kind = expected then [] else [.wrongType name expected value.kind]
  | none => [.unsupportedType name spec.type.name]

/-- Whether the value of this field takes part in the comparison of unique values. -/
def isCompared (spec : FieldSpec) : Bool := spec.unique && spec.type.kind?.isSome

/-- Checks the fields in turn, with the unique values `seen` in this record so far. The answer is
the broken rules, or the first reference field without an id. -/
def checkFrom (record : Record) (others : List Record) (seen : List Json) :
    Fields FieldSpec → Except StoreError (List Violation)
  | [] => .ok []
  | (name, spec) :: rest =>
    match Fields.get? record name with
    | none =>
      (checkFrom record others seen rest).map fun vs =>
        (if spec.required then [.required name] else []) ++ vs
    | some value =>
      -- ends the walk: whatever rules the fields before it break is lost with it
      if spec.reference && !isReference value then .error (.invalidReference name value)
      else if isCompared spec then
        let repeated := seen.any fun v => Json.sameValue v value
        let clash := if repeated || collides others name value then [.notUnique name value] else []
        -- a value that repeats is still seen by the fields after this one
        (checkFrom record others (seen ++ [value]) rest).map fun vs =>
          typeViolations name spec value ++ clash ++ vs
      else
        (checkFrom record others seen rest).map fun vs => typeViolations name spec value ++ vs

/-- The rules a sanitized record breaks beside these other records. -/
def checkFields (schema : Schema) (record : Record) (others : List Record) :
    Except StoreError (List Violation) :=
  checkFrom record others [] schema.fields

/-- The records a record is compared with: all but those that carry its own id. -/
def othersThan (selfId : Option String) (existing : List Record) : List Record :=
  match selfId with
  -- drops every record with that id, should there be more than one
  | some id => existing.filter fun r => Record.id? r != some id
  | none => existing

/-- The rules a sanitized record breaks in a collection where it replaces the record `selfId`. -/
def checkRecord (schema : Schema) (record : Record) (existing : List Record)
    (selfId : Option String) : Except StoreError (List Violation) :=
  checkFields schema record (othersThan selfId existing)

/-- The sanitized record, if it breaks no rule. -/
def validate (schema : Schema) (raw : Json) (existing : List Record) (selfId : Option String) :
    Except StoreError Record := do
  let record ← sanitize schema raw
  match ← checkRecord schema record existing selfId with
  | [] => .ok record
  | violations => .error (.validation violations)

-- ---------------------------------------------------------------------------
-- Checking a stored collection
-- ---------------------------------------------------------------------------

/-- A stored record that does not fit its schema. -/
structure Issue where
  /-- The place of the record in its collection. -/
  index : Nat
  id : Option String
  messages : List String
deriving DecidableEq

/-- What is wrong with the id of a stored record. -/
def idMessages (records : List Record) (record : Record) : List String :=
  match Record.id? record with
  | none => ["_id is missing"]
  | some id =>
    let copies := records.countP fun other => Record.id? other == some id
    if copies > 1 then ["_id " ++ id ++ " appears " ++ toString copies ++ " times"] else []

/-- One message per field that is neither reserved nor declared. -/
def unexpectedFields (schema : Schema) (record : Record) : List String :=
  ((Fields.names record).filter fun name => !Record.isReserved name && !schema.declares name).map
    fun name => "unexpected field '" ++ name ++ "'"

/-- What is wrong with the caller's fields of the record at a place. -/
def fieldMessages (schema : Schema) (records : List Record) (index : Nat) (record : Record) :
    List String :=
  match checkFields schema (sanitizeFields schema (Record.userFields record))
      -- told apart by place: ids may be missing or occur twice in a file
      (records.eraseIdx index) with
  | .ok violations => violations.map Violation.message
  | .error e => e.messages

/-- Everything that is wrong with the record at a place. -/
def recordMessages (schema : Schema) (records : List Record) (index : Nat) (record : Record) :
    List String :=
  idMessages records record ++ unexpectedFields schema record ++
    fieldMessages schema records index record

/-- The records that do not fit the schema, in order. -/
def checkIntegrity (schema : Schema) (records : List Record) : List Issue :=
  records.zipIdx.filterMap fun (record, index) =>
    match recordMessages schema records index record with
    | [] => none
    | messages => some ⟨index, Record.id? record, messages⟩

end Validation

end DocStore
