import DocStore.Collection.Basic
/-!
# Operations on a collection

Each operation as a value, and what it does. Arguments are checked before anything is read, so a
bad argument leaves an unloaded collection unloaded.

* `Collection.inserted`: the record a save stores.
* `Collection.merged`: the record an update stores in place of another.
* `Collection.perform`: every operation as one function.
-/

namespace DocStore

namespace Collection

-- ---------------------------------------------------------------------------
-- Arguments
-- ---------------------------------------------------------------------------

/-- The fields a query asks for; null asks for nothing. -/
def queryOf (v : Json) : Except StoreError Record :=
  match v with
  | .null => .ok []
  | .object members => .ok members
  | v => .error (.invalidArgument (.queryNotObject v))

/-- The fields an update writes. -/
def patchOf (v : Json) : Except StoreError Record :=
  match v with
  | .object members => .ok members
  | _ => .error (.validation [.updateNotObject])

-- ---------------------------------------------------------------------------
-- Records to store
-- ---------------------------------------------------------------------------

/-- The id of a new record: the one its caller gives, which must be new, or the next of the
supply. -/
def newId (records : List Record) (raw : Json) (ids : IdSupply) :
    Except StoreError String × IdSupply :=
  match raw.asObject?.bind fun fields => Fields.get? fields Record.idField with
  | none | some .null =>
    let (id, ids) := ids.next
    -- an id of the supply is taken as it comes, without a look at the records
    (.ok id, ids)
  | some (.string id) =>
    if id.length ≠ Validation.idLength then
      (.error (.validation [.idLength id Validation.idLength]), ids)
    else if records.any fun r => Record.id? r == some id then
      (.error (.validation [.idTaken id]), ids)
    else (.ok id, ids)
  | some v => (.error (.validation [.idNotString v]), ids)

/-- A timestamp, if the schema wants them. -/
def stamp (schema : Schema) (v : Json) : Option Json := if schema.timestamps then some v else none

/-- The record that a caller's value becomes beside the stored ones. -/
def inserted (schema : Schema) (now : Json) (records : List Record) (raw : Json) (ids : IdSupply) :
    Except StoreError Record × IdSupply :=
  match Validation.validate schema raw records none with
  | .error e => (.error e, ids)
  | .ok fields =>
    match newId records raw ids with
    | (.error e, ids) => (.error e, ids)
    | (.ok id, ids) =>
      (.ok (Record.assemble id fields (stamp schema now) (stamp schema now)), ids)

/-- The id of a stored record, or the next of the supply if it has none. -/
def keptId (existing : Record) (ids : IdSupply) : String × IdSupply :=
  match Record.id? existing with
  | some id => (id, ids)
  | none => ids.next

/-- The caller's fields of a stored record under those of a patch. -/
def mergedFields (existing patch : Record) : Record :=
  Fields.merge (Record.userFields existing) (Record.userFields patch)

/-- The record that takes the place of a stored one when a patch is merged into it. -/
def merged (schema : Schema) (now : Json) (records : List Record) (existing patch : Record)
    (ids : IdSupply) : Except StoreError Record × IdSupply :=
  -- drawn before the check, which may still refuse the record
  let (id, ids) := keptId existing ids
  match Validation.validate schema (.object (mergedFields existing patch)) records (some id) with
  | .error e => (.error e, ids)
  | .ok fields =>
    -- a time that is there stays, also if it is no text
    let created := (Fields.get? existing Record.createdField).getD now
    (.ok (Record.assemble id fields (stamp schema created) (stamp schema now)), ids)

-- ---------------------------------------------------------------------------
-- Operations
-- ---------------------------------------------------------------------------

def findById (c : Collection) (w : World) (id : String) : Outcome (Option Record) :=
  c.reading w fun records => records.find? fun r => Record.id? r == some id

/-- The first record that matches a query. -/
def findOne (c : Collection) (w : World) (query : Json) : Outcome (Option Record) :=
  match queryOf query with
  | .error e => ⟨.error e, c, w⟩
  | .ok query => c.reading w fun records => records.find? fun r => Record.matchesQuery r query

/-- Every record that matches a query. -/
def find (c : Collection) (w : World) (query : Json) : Outcome (List Record) :=
  match queryOf query with
  | .error e => ⟨.error e, c, w⟩
  | .ok query => c.reading w fun records => records.filter fun r => Record.matchesQuery r query

/-- The stored records that do not fit the schema. -/
def checkIntegrity (c : Collection) (w : World) : Outcome (List Validation.Issue) :=
  c.reading w (Validation.checkIntegrity c.schema)

/-- The records after a pipeline. -/
def aggregate (c : Collection) (w : World) (pipeline : Json) : Outcome (List Record) :=
  -- every stage is decoded before the first one runs
  match Stage.decodeAll pipeline with
  | .error fault => ⟨.error (.invalidStage fault), c, w⟩
  | .ok stages =>
    let o := c.load w
    match o.answer with
    | .error e => { o with answer := .error e }
    | .ok records =>
      let (records, random) := Stage.applyAll stages records o.world.random
      ⟨.ok records, o.collection,
        { o.world with random := random }.warn (Stage.warnings stages)⟩

/-- Stores a new record at the end. -/
def save (c : Collection) (w : World) (raw : Json) : Outcome Record :=
  c.writing w fun records ids =>
    match inserted c.schema w.now records raw ids with
    | (.error e, ids) => (.error e, ids)
    | (.ok r, ids) => (.ok (.replace (records ++ [r]) r), ids)

/-- Merges a patch into the record of an id. -/
def update (c : Collection) (w : World) (id : String) (patch : Json) : Outcome (Option Record) :=
  match patchOf patch with
  | .error e => ⟨.error e, c, w⟩
  | .ok patch =>
    c.writing w fun records ids =>
      match records.findIdx? fun r => Record.id? r == some id with
      | none => (.ok (.keep none), ids)
      | some i =>
        match merged c.schema w.now records (records.getD i []) patch ids with
        | (.error e, ids) => (.error e, ids)
        | (.ok r, ids) => (.ok (.replace (records.set i r) (some r)), ids)

/-- Merges an update into the first record that matches a filter, and moves its reserved fields to
the end; if none matches, stores the update as a new record. -/
def upsert (c : Collection) (w : World) (filter update : Json) : Outcome Record :=
  match queryOf filter with
  | .error e => ⟨.error e, c, w⟩
  | .ok query =>
    match patchOf update with
    | .error e => ⟨.error e, c, w⟩
    | .ok patch =>
      c.writing w fun records ids =>
        match records.findIdx? fun r => Record.matchesQuery r query with
        | some i =>
          match merged c.schema w.now records (records.getD i []) patch ids with
          | (.error e, ids) => (.error e, ids)
          | (.ok r, ids) =>
            -- only this path moves them; an update by id leaves the layout of `merged`
            let r := Record.reservedLast r
            (.ok (.replace (records.set i r) r), ids)
        | none =>
          -- the new record holds the fields of the update, none of the filter
          match inserted c.schema w.now records (.object patch) ids with
          | (.error e, ids) => (.error e, ids)
          | (.ok r, ids) => (.ok (.replace (records ++ [r]) r), ids)

/-- Removes the record of an id. -/
def delete (c : Collection) (w : World) (id : String) : Outcome (Option Record) :=
  c.writing w fun records ids =>
    match records.findIdx? fun r => Record.id? r == some id with
    | none => (.ok (.keep none), ids)
    -- answers with the record as it was stored
    | some i => (.ok (.replace (records.eraseIdx i) records[i]?), ids)

/-- An operation with its arguments. -/
inductive Operation where
  | load
  | getAll
  | count
  | findById (id : String)
  | findOne (query : Json)
  | find (query : Json)
  | checkIntegrity
  | aggregate (pipeline : Json)
  | save (raw : Json)
  | update (id : String) (patch : Json)
  | upsert (filter update : Json)
  | delete (id : String)

/-- What an operation answers. -/
inductive Answer where
  | done
  | count (n : Nat)
  | record (r : Option Record)
  | records (rs : List Record)
  | issues (is : List Validation.Issue)

/-- The outcome with its answer in another form. -/
def asAnswer {α : Type} (f : α → Answer) (o : Outcome α) : Outcome Answer :=
  { o with answer := o.answer.map f }

/-- Performs an operation. -/
def perform (c : Collection) (w : World) : Operation → Outcome Answer
  | .load => asAnswer (fun _ => .done) (c.load w)
  | .getAll => asAnswer .records (c.reading w id)
  | .count => asAnswer .count (c.reading w List.length)
  | .findById id => asAnswer .record (c.findById w id)
  | .findOne query => asAnswer .record (c.findOne w query)
  | .find query => asAnswer .records (c.find w query)
  | .checkIntegrity => asAnswer .issues (c.checkIntegrity w)
  | .aggregate pipeline => asAnswer .records (c.aggregate w pipeline)
  | .save raw => asAnswer (fun r => .record (some r)) (c.save w raw)
  | .update id patch => asAnswer .record (c.update w id patch)
  | .upsert filter update => asAnswer (fun r => .record (some r)) (c.upsert w filter update)
  | .delete id => asAnswer .record (c.delete w id)

/-- Performs operations in turn. The answers stand in the order of the operations. -/
def performAll (c : Collection) (w : World) :
    List Operation → List (Except StoreError Answer) × Collection × World
  | [] => ([], c, w)
  | op :: rest =>
    let o := c.perform w op
    let (answers, c, w) := performAll o.collection o.world rest
    (o.answer :: answers, c, w)

end Collection

end DocStore
