import DocStore.Relational.Database
/-!
# Databases as statements

The statements that make a database: one per table, and one per row, with its number.
-/

namespace DocStore

/-- A cell as a literal; a number beyond all doubles as one that is read as such. -/
def Cell.literal : Cell → String
  | .null => "NULL"
  | .integer n => toString n
  | .real d => d.jsonText
  | .infinite negative => if negative then "-9e999" else "9e999"
  | .text s => quotedTwice '\'' s

namespace Table

/-- The statement that makes the table. -/
def createStatement (t : Table) : Statement := Statement.creation "CREATE TABLE " t.name t.columns

/-- A name for the number of a row that no column has. -/
def rowIdName? (t : Table) : Option String := rowIdNames.find? t.isRowId

/-- The statement that inserts a row. The number of a row is left out if it has no name. -/
def insertStatement (t : Table) (r : Row) : Statement :=
  let names := t.rowIdName?.toList ++ t.columns.map Prod.fst
  let values := t.rowIdName?.toList.map (fun _ => toString r.id) ++ r.cells.map Cell.literal
  ["INSERT INTO ", Statement.name t.name, " ("] ++
    Statement.separated (names.map fun n => [Statement.name n]) ++ [") VALUES ("] ++
    Statement.separated (values.map fun v => [v]) ++ [")"]

/-- The statements that make the table with its rows. -/
def script (t : Table) : String :=
  String.join ((t.createStatement :: t.rows.map t.insertStatement).map fun s => s.text ++ ";\n")

end Table

/-- The statements that make a database. -/
def Database.script (db : Database) : String := String.join (db.tables.map Table.script)

end DocStore
