import DocStore.Diagnostic
import DocStore.Record
import DocStore.Relational.Database
import DocStore.Schema.Basic
/-!
# Export

Records are inserted one by one into a table of a sink. A record that the sink refuses is reported,
and the others are still tried.

* `Sink`: a destination for rows. A refused row leaves it as it was.
* `exportRecords`: one outcome per record, in order.
-/

namespace DocStore

/-- A destination for rows: the number of the new row and the sink that holds it, or why the row
is refused. -/
structure Sink (σ : Type) where
  insert : σ → String → Record → Except StoreError (Int × σ)

-- ---------------------------------------------------------------------------
-- Reports
-- ---------------------------------------------------------------------------

/-- What became of one record. -/
inductive RowOutcome where
  | inserted (id : Option String) (rowId : Int)
  | failed (id : Option String) (error : StoreError)

namespace RowOutcome

def isInserted : RowOutcome → Bool
  | inserted _ _ => true
  | failed _ _ => false

/-- The id of the record. -/
def id? : RowOutcome → Option String
  | inserted id _ => id
  | failed id _ => id

end RowOutcome

/-- What became of the records of an export, in order. -/
structure ExportReport where
  table : String
  rows : List RowOutcome

namespace ExportReport

def inserted (r : ExportReport) : Nat := r.rows.countP RowOutcome.isInserted

def failed (r : ExportReport) : Nat := r.rows.length - r.inserted

def isComplete (r : ExportReport) : Bool := r.failed == 0

/-- An id as a value. -/
def idJson (id : Option String) : Json :=
  match id with
  | some s => .string s
  | none => .null

def rowJson : RowOutcome → Json
  | .inserted id rowId =>
    .object [("status", .string "inserted"), ("id", idJson id), ("row_id", .int rowId)]
  | .failed id e =>
    .object [("status", .string "failed"), ("id", idJson id), ("error", .string e.message)]

def toJson (r : ExportReport) : Json :=
  .object [("table", .string r.table), ("rows", .array (r.rows.map rowJson))]

/-- The warning a refused record gives. -/
def warning? (table : String) : RowOutcome → Option String
  | .inserted _ _ => none
  | .failed id e =>
    some ("Export of " ++ Diagnostic.optional id ++ " into '" ++ table ++ "' failed: " ++ e.message)

/-- The warnings of an export, in the order of the records. -/
def warnings (r : ExportReport) : List String := r.rows.filterMap (warning? r.table)

end ExportReport

/-- Tries to insert one record. -/
def exportRecord {σ : Type} (sink : Sink σ) (table : String) (state : σ) (r : Record) :
    RowOutcome × σ :=
  match sink.insert state table r with
  | .ok (rowId, state) => (.inserted (Record.id? r) rowId, state)
  -- the sink as it was: a refused row leaves no trace
  | .error e => (.failed (Record.id? r) e, state)

/-- Tries to insert each record in turn. -/
def exportRows {σ : Type} (sink : Sink σ) (table : String) (state : σ) :
    List Record → List RowOutcome × σ
  | [] => ([], state)
  | r :: rest =>
    let (outcome, state) := exportRecord sink table state r
    let (outcomes, state) := exportRows sink table state rest
    (outcome :: outcomes, state)

/-- The report of an export, and the sink after it. -/
def exportRecords {σ : Type} (sink : Sink σ) (table : String) (state : σ) (records : List Record) :
    ExportReport × σ :=
  let (rows, state) := exportRows sink table state records
  (⟨table, rows⟩, state)

-- ---------------------------------------------------------------------------
-- Databases as sinks
-- ---------------------------------------------------------------------------

/-- The affinity of the column for a field. -/
def FieldType.affinity : FieldType → Affinity
  | .string | .array => .text
  | .number => .numeric
  | .boolean => .integer
  | .unsupported _ => .none

/-- The columns for the records of a schema: the id, the declared fields, the timestamps. -/
def Schema.columns (schema : Schema) : List (String × Affinity) :=
  (Record.idField, .text) :: schema.fields.map (fun (name, spec) => (name, spec.type.affinity)) ++
    if schema.timestamps then [(Record.createdField, .text), (Record.updatedField, .text)] else []

/-- The database with a table for the records of a schema. -/
def Database.ensureFor (db : Database) (table : String) (schema : Schema) :
    Except StoreError Database :=
  (db.ensure .full table schema.columns).mapError .table

/-- A database as a sink. A record without any field is refused. -/
def databaseSink (access : Access) : Sink Database where
  insert db table r :=
    -- an insertion has to name a column
    if r.isEmpty then .error (.row .empty)
    else (db.insert access table (r.map fun (name, v) => (name, Cell.ofJson v))).mapError .table

-- ---------------------------------------------------------------------------
-- Lists as sinks
-- ---------------------------------------------------------------------------

/-- Rows kept in a list with their tables, and the number of the row before them. -/
structure RowList where
  rows : List (String × Record)
  lastId : Nat

/-- A list as a sink; `refuses` says which rows are refused, and why. -/
def listSink (refuses : String → Record → Option RowFault) : Sink RowList where
  insert kept table r :=
    match refuses table r with
    | some fault => .error (.row fault)
    | none => .ok (kept.lastId + 1, ⟨kept.rows ++ [(table, r)], kept.lastId + 1⟩)

/-- Refuses the rows that have this field. -/
def refusesField (name : String) (_table : String) (r : Record) : Option RowFault :=
  (Fields.get? r name).map .refused

end DocStore
