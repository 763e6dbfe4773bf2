import DocStore.Relational.Statement
/-!
# Tables

A small relational database: tables with typed columns, the first of which holds ids that do not
repeat. Names compare without regard to the case of ASCII letters. Rows are never removed. Each row
has a number of its own; a row that is given none gets the next one.

* `Table.add`: a table with one more row at its end.
* `Database.insert`, `Database.ensure`: what statements do to a database, and why they are refused.
-/

namespace DocStore

/-- A row: its number and its cells in the order of the columns. -/
structure Row where
  id : Int
  cells : List Cell
deriving DecidableEq

/-- A table and its rows in the order of insertion. -/
structure Table where
  name : String
  columns : List (String × Affinity)
  rows : List Row
deriving DecidableEq

/-- The tables of a database in the order of creation. -/
structure Database where
  tables : List Table
deriving DecidableEq

/-- Whether two names are the same up to the case of ASCII letters. -/
def sameIdentifier (a b : String) : Bool := a.toLower == b.toLower

/-- What may be done to a database. -/
inductive Access where
  | full
  | readOnly
  /-- All but to note down changes before they are made, without which none is made. -/
  | noJournal
deriving DecidableEq

namespace Table

/-- Whether the table has a column of this name. -/
def hasColumn (t : Table) (name : String) : Bool := t.columns.any fun c => sameIdentifier c.1 name

/-- The names of the number of a row, where no column has them. -/
def rowIdNames : List String := ["rowid", "oid", "_rowid_"]

/-- Whether a name stands for the number of a row. -/
def isRowId (t : Table) (name : String) : Bool :=
  !t.hasColumn name && rowIdNames.any (sameIdentifier name)

/-- What a row stores in a column: the first value given under its name, converted. -/
def cellFor (row : Fields Cell) (column : String × Affinity) : Cell :=
  match row.find? fun e => sameIdentifier e.1 column.1 with
  | some (_, c) => c.convert column.2
  | none => .null

/-- The cells of a row in the order of the columns. -/
def cellsFor (t : Table) (row : Fields Cell) : List Cell := t.columns.map (cellFor row)

/-- Whether a row with these cells repeats an id; rows without id may be many. -/
def repeatsId (t : Table) (cells : List Cell) : Bool :=
  match cells.head? with
  | none | some .null => false
  | some id => t.rows.any fun r => r.cells.head? == some id

-- ---------------------------------------------------------------------------
-- Numbers of rows
-- ---------------------------------------------------------------------------

/-- The greatest number of a row. -/
def lastId? (t : Table) : Option Int := (t.rows.map Row.id).max?

/-- The least positive number that no row has. -/
def freeId (t : Table) : Int :=
  let ids := t.rows.map Row.id
  let candidates := (List.range (t.rows.length + 1)).map fun i => Int.ofNat (i + 1)
  (candidates.find? fun id => !ids.contains id).getD 1

/-- The number of a row that is given none: one more than the greatest, as long as there is one. -/
def nextId (t : Table) : Int :=
  match t.lastId? with
  | none => 1
  -- past the greatest number a free one has to be searched
  | some id => if Cell.IntegerRange (id + 1) then id + 1 else t.freeId

/-- What a row gives as its number; the last value counts. -/
def givenId? (t : Table) (row : Fields Cell) : Option Cell :=
  (row.reverse.find? fun e => t.isRowId e.1).map Prod.snd

/-- The number a row gets. -/
def idFor (t : Table) (row : Fields Cell) : Except TableFault Int :=
  -- a text that looks like a number is one here
  match (t.givenId? row).map Cell.toNumber with
  | none | some .null => .ok t.nextId
  | some (.integer id) =>
    if t.rows.any fun r => r.id == id then .error (.notUnique t.name "rowid") else .ok id
  | some _ => .error .mismatch

/-- The table with one more row, and the number of that row. -/
def add (t : Table) (row : Fields Cell) : Except TableFault (Int × Table) :=
  match t.idFor row with
  | .error e => .error e
  | .ok id =>
    let cells := t.cellsFor row
    if t.repeatsId cells then
      .error (.notUnique t.name ((t.columns.head?.map Prod.fst).getD ""))
    else .ok (id, { t with rows := t.rows ++ [⟨id, cells⟩] })

end Table

namespace Database

def empty : Database := ⟨[]⟩

instance : Inhabited Database := ⟨empty⟩

/-- The table of this name. -/
def table? (db : Database) (name : String) : Option Table :=
  db.tables.find? fun t => sameIdentifier t.name name

-- ---------------------------------------------------------------------------
-- Tables that are always there
-- ---------------------------------------------------------------------------

/-- What a database tells about its own tables: the name of that table, its other name, and its
columns with their types. Tables for one connection only are told about apart from the others. -/
def catalogNames : List (String × String) :=
  [("sqlite_master", "sqlite_schema"), ("sqlite_temp_master", "sqlite_temp_schema")]

/-- The tables of the parts of a value, which is given in a query. -/
def valueTables : List String := ["json_each", "json_tree"]

/-- The columns of a table of the parts of a value. -/
def valueColumns : List String :=
  ["key", "value", "type", "atom", "id", "parent", "fullkey", "path"]

/-- The columns of a table of the columns of a table. -/
def tableColumns : List String := ["cid", "name", "type", "notnull", "dflt_value", "pk"]

/-- The tables about a table or index, which is given in a query, with their columns. They hold
nothing if none is given, and are called as the caller does. -/
def detailTables : Fields (List String) := [
  ("pragma_table_info", tableColumns),
  ("pragma_table_xinfo", tableColumns ++ ["hidden"]),
  ("pragma_index_list", ["seq", "name", "unique", "origin", "partial"]),
  ("pragma_index_info", ["seqno", "cid", "name"]),
  ("pragma_index_xinfo", ["seqno", "cid", "name", "desc", "coll", "key"]),
  ("pragma_foreign_key_list",
    ["id", "seq", "table", "from", "to", "on_update", "on_delete", "match"])]

/-- The columns of a table about a table or index. -/
def detailColumns? (name : String) : Option (List String) :=
  (detailTables.find? fun t => sameIdentifier t.1 name).map Prod.snd

/-- The name of a table that is always there and that only the database itself writes into. -/
def standing? (name : String) : Option String :=
  match catalogNames.find? fun c => sameIdentifier c.1 name || sameIdentifier c.2 name with
  | some (standing, _) => some standing
  | none =>
    match valueTables.find? (sameIdentifier name) with
    | some standing => some standing
    | none => (detailColumns? name).map fun _ => name

/-- How the names begin that only the database itself gives. -/
def reservedStart : String := "sqlite_"

def isReserved (name : String) : Bool :=
  sameIdentifier (String.ofList (name.toList.take reservedStart.length)) reservedStart

-- ---------------------------------------------------------------------------
-- Making a table
-- ---------------------------------------------------------------------------

/-- How many columns a table has at most. -/
def columnLimit : Nat := 2000

/-- What is wrong with the first column that cannot be declared after those seen. -/
def columnFault? (statement : Statement) (table : String) (seen : List String) :
    List String → Option TableFault
  | [] => none
  | name :: rest =>
    if Statement.hasNul name then statement.fault?
    else if columnLimit ≤ seen.length then some (.tooManyColumns table)
    else if seen.any (sameIdentifier name) then some (.duplicateColumn name)
    else columnFault? statement table (name :: seen) rest

/-- What is wrong with the name of a new table. -/
def nameFault? (statement : Statement) (name : String) : Option TableFault :=
  if Statement.hasNul name then statement.fault?
  else if isReserved name then some (.reserved name)
  else none

/-- The database with this table. -/
def create (db : Database) (access : Access) (name : String) (columns : List (String × Affinity)) :
    Except TableFault Database :=
  match columnFault? (Statement.ensuring name columns) name [] (columns.map Prod.fst), access with
  | some fault, _ => .error fault
  | none, .readOnly => .error .readOnly
  | none, .noJournal => .error .noJournal
  | none, .full => .ok ⟨db.tables ++ [⟨name, columns, []⟩]⟩

/-- The database with this table; one that is there already stays as it is. -/
def ensure (db : Database) (access : Access) (name : String)
    (columns : List (String × Affinity)) : Except TableFault Database :=
  let statement := Statement.ensuring name columns
  match nameFault? statement name with
  | some fault => .error fault
  | none =>
    match db.table? name with
    | none => db.create access name columns
    | some _ =>
      -- the whole statement is read even if the table is there
      match statement.fault? with
      | some fault => .error fault
      | none => .ok db

-- ---------------------------------------------------------------------------
-- Inserting a row
-- ---------------------------------------------------------------------------

/-- The table that a row is for, which has a column for each of its values. Errors call the table
as the caller does. -/
def target (db : Database) (name : String) (row : Fields Cell) : Except TableFault Table :=
  match (Statement.insertion name row.names).fault?, db.table? name with
  | some fault, _ => .error fault
  | none, none =>
    match standing? name with
    | some standing => .error (.notModifiable standing)
    | none => .error (.noTable name)
  -- the first column that is missing is the one reported
  | none, some t =>
    match row.find? fun e => !t.hasColumn e.1 && !t.isRowId e.1 with
    | some (column, _) => .error (.noColumn name column)
    | none => .ok t

/-- Replaces the first table of this name. -/
def replace (name : String) (t : Table) : List Table → List Table
  | [] => []
  | u :: rest => if sameIdentifier u.name name then t :: rest else u :: replace name t rest

/-- The database with one more row, and the number of that row. -/
def insert (db : Database) (access : Access) (name : String) (row : Fields Cell) :
    Except TableFault (Int × Database) :=
  match db.target name row with
  | .error e => .error e
  | .ok t =>
    -- refused before ids are compared; a missing journal shows only when the row is to be written
    if access = .readOnly then .error .readOnly
    else
      match t.add row with
      | .error e => .error e
      | .ok (id, t) =>
        if access = .noJournal then .error .noJournal
        else .ok (id, ⟨replace name t db.tables⟩)

end Database

end DocStore
