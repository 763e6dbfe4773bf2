import DocStore.Error
import DocStore.Fields
import DocStore.Relational.Cell
/-!
# Statements

The statements that make a table and insert a row. Names stand in quotes, so any text is a name but
one: a statement is read up to the first NUL, and a name with a NUL in it is left without its
closing quote.

* `Statement.fault?`: where the reading of a statement ends early, if it does.
-/

namespace DocStore

/-- A text between quotes, which are doubled inside. -/
def quotedTwice (quote : Char) (s : String) : String :=
  String.ofList (quote :: s.toList.flatMap (fun c => if c = quote then [c, c] else [c]) ++ [quote])

/-- A statement in pieces; each name in its quotes is a piece. -/
abbrev Statement := List String

namespace Statement

def text (s : Statement) : String := String.join s

/-- A name as it is written. -/
def name (s : String) : String := quotedTwice '"' s

/-- Whether a name or a piece cannot be read to its end. -/
def hasNul (s : String) : Bool := s.toList.contains '\x00'

/-- The first piece with a NUL in it, up to there, and how many bytes stand before it. -/
def cutPiece? (offset : Nat) : Statement → Option (String × Nat)
  | [] => none
  | piece :: rest =>
    if hasNul piece then
      some (String.ofList (piece.toList.takeWhile (· ≠ '\x00')), offset)
    else cutPiece? (offset + piece.utf8ByteSize) rest

/-- What is wrong with a statement that holds a NUL. -/
def fault? (s : Statement) : Option TableFault :=
  (cutPiece? 0 s).map fun (token, offset) => .badToken token s.text offset

/-- Lists separated by commas. -/
def separated : List Statement → Statement
  | [] => []
  | [s] => s
  | s :: rest => s ++ ", " :: separated rest

-- ---------------------------------------------------------------------------
-- Making a table
-- ---------------------------------------------------------------------------

/-- A column as it is declared. -/
def column (c : String × Affinity) : Statement :=
  [name c.1, if c.2 = .none then "" else " " ++ c.2.declaredType]

/-- The columns as they are declared. The first one holds ids. -/
def columns : List (String × Affinity) → List Statement
  | [] => []
  | c :: rest => (column c ++ [" PRIMARY KEY"]) :: rest.map column

/-- The statement that makes a table, from the words that open it. -/
def creation (opening table : String) (cs : List (String × Affinity)) : Statement :=
  [opening, name table, " ("] ++ separated (columns cs) ++ [")"]

/-- The statement that makes a table unless it is there. -/
def ensuring (table : String) (cs : List (String × Affinity)) : Statement :=
  creation "CREATE TABLE IF NOT EXISTS " table cs

-- ---------------------------------------------------------------------------
-- Inserting a row
-- ---------------------------------------------------------------------------

/-- The statement that inserts a row with values for these columns, which are given apart from
it. -/
def insertion (table : String) (names : List String) : Statement :=
  let places := (List.range names.length).map fun i => ["?" ++ toString (i + 1)]
  ["INSERT INTO ", name table, " ("] ++ separated (names.map fun n => [name n]) ++
    [") VALUES ("] ++ separated places ++ [")"]

end Statement

end DocStore
