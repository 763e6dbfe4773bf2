import DocStore.Json.Equality
/-!
# Records

A record is an object with three reserved fields, which the store manages and callers cannot
write: its id and two timestamps.

* `Record.assemble`: the layout of a new or merged record.
* `Record.reservedLast`: the layout of a record updated through a filter.
* `Record.matchesQuery`: the equality filter of every search.
-/

namespace DocStore

/-- A stored document: field names and values in order. -/
abbrev Record := Fields Json

namespace Record

def idField : String := "_id"
def createdField : String := "createdAt"
def updatedField : String := "updatedAt"

/-- The fields the store manages, in the order in which they end a record. -/
def reservedFields : List String := [createdField, updatedField, idField]

/-- Whether a name is one of the reserved fields. -/
def isReserved (name : String) : Bool := reservedFields.contains name

/-- The id, if the record has one that is a string. -/
def id? (r : Record) : Option String := (Fields.get? r idField).bind Json.asString?

/-- The fields that belong to the caller. -/
-- a caller's value for a reserved name is dropped here, not refused
def userFields (r : Record) : Record := r.filter fun field => !isReserved field.1

/-- A field that may be absent. -/
def optionalField (name : String) (value : Option Json) : Record :=
  match value with
  | some v => [(name, v)]
  | none => []

/-- Lays out a record: id, the caller's fields, timestamps. -/
def assemble (id : String) (fields : Record) (created updated : Option Json) : Record :=
  -- the id first, so that it is the first column of an exported row too
  (idField, .string id) :: userFields fields ++
    optionalField createdField created ++ optionalField updatedField updated

/-- The record with its reserved fields moved to the end, in their fixed order. -/
def reservedLast (r : Record) : Record :=
  userFields r ++ reservedFields.flatMap fun name => optionalField name (Fields.get? r name)

/-- Whether every field of the query is in the record with the same value. -/
def matchesQuery (r query : Record) : Bool :=
  query.all fun (name, expected) =>
    match Fields.get? r name with
    | some actual => Json.sameValue actual expected
    | none => false

end Record

end DocStore
