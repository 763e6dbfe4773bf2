import DocStore.FileTree
import DocStore.Relational.Address
/-!
# Database files

A database is kept in a file of its own. An empty file is a database without tables, and a file that
does not exist is made when the database is opened. Changes are noted down in a journal beside the
file before they are made; one that is found there is done with before the file is read.

* `FileTree.databasePlace?`: the place of a database file. Its path is shortened name by name.
* `DatabaseFile.find`: opens a file without reading it.
* `DatabaseFile.read`, `Connection.save`: what reading and writing a file do to the files.
* `Connection.openWith`: a connection to a database that has a given table.
-/

namespace DocStore

-- ---------------------------------------------------------------------------
-- Places of database files
-- ---------------------------------------------------------------------------

namespace FileTree

/-- The bytes of a place as a path. -/
def pathSize (p : Place) : Nat := p.foldl (fun n name => n + name.utf8ByteSize + 1) 0

/-- Whether nothing can ever be at a place as it is named. That a directory is missing is no reason
against it. -/
def isBarred (t : FileTree) (p : Place) : Bool :=
  let around := p.dropLast
  if t.isDirectory around then !(p.getLast?.all isName) else (t.node? around).isSome

/-- Follows names from a place without regard to whether there are such directories. -/
def follow? (t : FileTree) (place : Place) : List String → Option Place
  | [] => some place
  | name :: rest =>
    if name = ".." then follow? t place.dropLast rest
    else
      let next := place ++ [name]
      if pathSize next > 511 || t.isBarred next then none else follow? t next rest

/-- The place of the database file that a path names. There has to be room for the name of its
journal. -/
def databasePlace? (t : FileTree) (path : String) : Option Place :=
  (t.follow? (t.start path) (steps path)).filter fun p => p != [] && pathSize p ≤ 504

/-- The place beside a file that has its name with an ending. -/
def beside (p : Place) (ending : String) : Place :=
  p.dropLast ++ [(p.getLast?.getD "") ++ ending]

end FileTree

namespace Node

/-- Whether a file counts as empty for a database; the first byte may be there for its own sake. -/
def isBlank : Node → Bool
  | .text s => s.utf8ByteSize ≤ 1
  | .bytes bs => bs.length ≤ 1
  | .directory | .database _ => false

/-- Whether there is anything in a file. -/
def isEmpty : Node → Bool
  | .text s => s.utf8ByteSize == 0
  | .bytes bs => bs.isEmpty
  | .directory | .database _ => false

/-- Whether a journal tells of changes that were begun: its first byte is no zero. -/
def tellsOfChanges : Node → Bool
  | .text s => s.toList.head?.any (· ≠ '\x00')
  | .bytes bs => bs.head?.any (· ≠ 0)
  | .database _ => true
  | .directory => false

/-- The database that a file holds. -/
def holds : Node → Except TableFault Database
  | .database db => .ok db
  | n => if n.isBlank then .ok Database.empty else .error .notDatabase

end Node

-- ---------------------------------------------------------------------------
-- Opening and reading
-- ---------------------------------------------------------------------------

/-- A database file that is open. -/
structure DatabaseFile where
  place : Place
  mode : FileMode

/-- A database to work on. -/
structure Connection where
  database : Database
  access : Access
  /-- Where it is kept if it is not in memory only. -/
  place : Option Place
  /-- Whether changes are noted down in a journal first. -/
  journals : Bool

namespace DatabaseFile

/-- The place of the journal of a file. -/
def journal (f : DatabaseFile) : Place := FileTree.beside f.place "-journal"

/-- The place where changes are collected that have not reached the file. -/
def log (f : DatabaseFile) : Place := FileTree.beside f.place "-wal"

/-- Opens a file without reading it, and makes it if need be. -/
def find (files : FileTree) (address path : String) (mode : FileMode) :
    Except TableFault DatabaseFile × FileTree :=
  match files.databasePlace? path with
  | none => (.error (.cannotOpen address), files)
  | some place =>
    match files.node? place with
    | some .directory =>
      (.error (if mode.writes || mode.creates then .cannotOpen address else .unreadable), files)
    | some _ => (.ok ⟨place, mode⟩, files)
    | none =>
      if mode.creates && files.isDirectory place.dropLast then
        (.ok ⟨place, mode⟩, files.put place (.text ""))
      else (.error (.cannotOpen address), files)

/-- Clears away a journal that is found. One without changes is left, and so is any beside a blank
file that is not written. -/
def settleJournal (f : DatabaseFile) (files : FileTree) (blank : Bool) :
    Except TableFault Unit × FileTree :=
  match files.node? f.journal with
  | none => (.ok (), files)
  | some .directory => (if blank then .ok () else .error .unreadable, files)
  | some n =>
    if n.isEmpty || !(blank || n.tellsOfChanges) then (.ok (), files)
    else if f.mode.writes then (.ok (), files.removeAll f.journal)
    else (if blank then .ok () else .error .readOnly, files)

/-- Clears away collected changes that are found. -/
def settleLog (f : DatabaseFile) (files : FileTree) (blank : Bool) :
    Except TableFault Unit × FileTree :=
  match files.node? f.log with
  | none => (.ok (), files)
  | some .directory => (.error (if blank then .unreadable else .noJournal), files)
  | some n =>
    if n.isEmpty || !(blank || f.mode.writes) then (.ok (), files)
    else (.ok (), files.removeAll f.log)

/-- Clears away what is found beside a file. -/
def settle (f : DatabaseFile) (files : FileTree) (blank : Bool) :
    Except TableFault Unit × FileTree :=
  if f.mode.alone then (.ok (), files)
  else
    match f.settleJournal files blank with
    | (.error e, files) => (.error e, files)
    | (.ok (), files) => f.settleLog files blank

/-- What may be done to the database in a file. -/
def access (f : DatabaseFile) (files : FileTree) : Access :=
  if !f.mode.writes || f.mode.alone then .readOnly
  else if files.isDirectory f.journal || !(f.journal.getLast?.all FileTree.isName) then .noJournal
  else .full

/-- Reads a file. -/
def read (f : DatabaseFile) (files : FileTree) : Except TableFault Connection × FileTree :=
  let node := (files.node? f.place).getD (.text "")
  let collected := !node.isBlank && (files.node? f.log).any fun n => !n.isEmpty
  match f.settle files node.isBlank with
  | (.error e, files) => (.error e, files)
  | (.ok (), files) =>
    (node.holds.map fun db => ⟨db, f.access files, some f.place, !collected⟩, files)

end DatabaseFile

namespace Connection

/-- A database in memory. -/
def inMemory (writes : Bool) : Connection where
  database := Database.empty
  access := if writes then .full else .readOnly
  place := none
  journals := false

/-- The files with a changed database in its file. The journal is gone then. -/
def save (c : Connection) (db : Database) (files : FileTree) : FileTree :=
  match c.place with
  | none => files
  | some place =>
    if db = c.database then files
    else
      let files := if c.journals then files.removeAll (FileTree.beside place "-journal") else files
      files.put place (.database db)

/-- Makes a table unless it is there. The files hold it from then on. -/
def ensure (c : Connection) (files : FileTree) (table : String)
    (columns : List (String × Affinity)) : Except TableFault Connection × FileTree :=
  match c.database.ensure c.access table columns with
  | .error e => (.error e, files)
  | .ok db => (.ok { c with database := db }, c.save db files)

/-- Reads a file and makes a table. A name that cannot be read is refused before the file is read.
A reserved name is refused whatever the file holds, but it is read. -/
def ensureIn (f : DatabaseFile) (files : FileTree) (table : String)
    (columns : List (String × Affinity)) : Except TableFault Connection × FileTree :=
  let refused := Database.nameFault? (Statement.ensuring table columns) table
  match refused, Statement.hasNul table with
  | some e, true => (.error e, files)
  | _, _ =>
    match f.read files with
    | (.error e, files) => (.error (refused.getD e), files)
    | (.ok c, files) => c.ensure files table columns

/-- Opens the database of an address and makes a table. -/
def openWith (files : FileTree) (address table : String) (columns : List (String × Affinity)) :
    Except TableFault Connection × FileTree :=
  match Address.read address with
  | .error e => (.error (.address e), files)
  | .ok (.memory writes) => (inMemory writes).ensure files table columns
  | .ok (.file path mode) =>
    match DatabaseFile.find files address path mode with
    | (.error e, files) => (.error e, files)
    | (.ok f, files) => ensureIn f files table columns

end Connection

end DocStore
