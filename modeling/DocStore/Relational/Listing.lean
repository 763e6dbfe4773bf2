import DocStore.Relational.Database
/-!
# What a table holds

The columns of a table and its rows in the order of the number of rows. A column that takes the
name `rowid` for itself gives the order instead.

* `Database.listing?`: what the table of a name holds, also where the database itself keeps it.
-/

namespace DocStore

namespace Cell

/-- Where a number stands among the numbers: below all doubles, among them, above them. Among
them its value counts, in steps of `2 ^ -1074`. -/
structure Rank where
  group : Nat
  value : Int

/-- Nothing stands before the numbers, and texts stand behind them. -/
def rank : Cell → Rank
  | .null => ⟨0, 0⟩
  | .infinite true => ⟨1, 0⟩
  | .integer n => ⟨2, n * Nat.pow 2 1074⟩
  | .real d => ⟨2, d.units⟩
  | .infinite false => ⟨3, 0⟩
  | .text _ => ⟨4, 0⟩

/-- Whether a cell may stand before another in order. -/
def mayPrecede : Cell → Cell → Bool
  | .text a, .text b => !(b < a : Bool)
  | a, b =>
    a.rank.group < b.rank.group || (a.rank.group == b.rank.group && a.rank.value ≤ b.rank.value)

end Cell

namespace Table

/-- The cell of a row in the column of this name. -/
def cellOf? (t : Table) (name : String) (r : Row) : Option Cell :=
  ((t.columns.zip r.cells).find? fun e => sameIdentifier e.1.1 name).map Prod.snd

/-- What the name `rowid` stands for in a row. -/
def orderKey (t : Table) (r : Row) : Cell := (t.cellOf? "rowid" r).getD (.integer r.id)

/-- The rows in the order of `rowid`, and of their numbers where that leaves a choice. -/
def inOrder (t : Table) : List Row :=
  (t.rows.mergeSort fun a b => a.id ≤ b.id).mergeSort fun a b =>
    (t.orderKey a).mayPrecede (t.orderKey b)

end Table

/-- A column as it is told about: its name, its type, and whether it holds ids. -/
structure ListedColumn where
  name : String
  type : String
  isKey : Bool

/-- The columns of a table and the cells of its rows. -/
structure Listing where
  columns : List ListedColumn
  rows : List (List Cell)

namespace Listing

/-- What a table holds. Its first column holds ids. -/
def ofTable (t : Table) : Listing where
  columns := t.columns.zipIdx.map fun (c, i) => ⟨c.1, c.2.declaredType, i == 0⟩
  rows := t.inOrder.map Row.cells

/-- The columns of a table that is told about. -/
def catalogColumns : List ListedColumn :=
  [⟨"type", "TEXT", false⟩, ⟨"name", "TEXT", false⟩, ⟨"tbl_name", "TEXT", false⟩,
   ⟨"rootpage", "INT", false⟩, ⟨"sql", "TEXT", false⟩]

/-- What is told about a table: itself, and the index of its ids. Each begins on a page of its own,
and the first page is taken. -/
def catalogRows (i : Nat) (t : Table) : List (List Cell) :=
  let page := 2 * (i + 1)
  let sql := (Statement.creation "CREATE TABLE " t.name t.columns).text
  [[.text "table", .text t.name, .text t.name, .integer page, .text sql],
   [.text "index", .text ("sqlite_autoindex_" ++ t.name ++ "_1"), .text t.name,
    .integer (page + 1), .null]]

/-- A table without rows whose columns have no type. -/
def untyped (names : List String) : Listing := ⟨names.map fun n => ⟨n, "", false⟩, []⟩

/-- What a table that is always there holds. -/
def ofStanding (db : Database) (standing : String) : Listing :=
  match Database.detailColumns? standing with
  | some names => untyped names
  | none =>
    if Database.valueTables.contains standing then untyped Database.valueColumns
    else if standing = "sqlite_master" then
      ⟨catalogColumns, (db.tables.zipIdx.map fun (t, i) => catalogRows i t).flatten⟩
    else ⟨catalogColumns, []⟩

end Listing

/-- What the table of this name holds. -/
def Database.listing? (db : Database) (name : String) : Option Listing :=
  match db.table? name with
  | some t => some (Listing.ofTable t)
  | none => (Database.standing? name).map (Listing.ofStanding db)

end DocStore
