import DocStore.Diagnostic
import DocStore.Pipeline.Run
import DocStore.RecordFile
import DocStore.Validation
import DocStore.World
/-!
# Collections

A collection is bound to a schema and kept in one file. Its records are read from the file before
its first operation and stay in memory from then on; every change is written to the file first and
takes effect in memory only if that succeeds. A file that cannot be read leaves the collection
failed, and its next operation tries again.

* `Collection.reading`: an operation that answers from the records.
* `Collection.writing`: an operation that may replace the records.
-/

namespace DocStore

/-- What a collection holds in memory. -/
inductive LoadState where
  | unloaded
  | loaded (records : List Record)
  | failed (reason : StoreError)

/-- A collection: its schema, its file and what is in memory. -/
structure Collection where
  name : String
  schema : Schema
  path : String
  /-- The supply of ids, if the collection has one of its own. -/
  ownIds : Option IdSupply
  state : LoadState

/-- The answer of an operation, with the collection and the world after it. -/
structure Outcome (α : Type) where
  answer : Except StoreError α
  collection : Collection
  world : World

namespace Collection

/-- A collection that nothing is read of yet. -/
def unloaded (name : String) (schema : Schema) (path : String) : Collection :=
  ⟨name, schema, path, none, .unloaded⟩

/-- The records in memory, if there are any. -/
def loaded? (c : Collection) : Option (List Record) :=
  match c.state with
  | .loaded records => some records
  | _ => none

/-- How many records are in memory. -/
def loadedCount (c : Collection) : Option Nat := c.loaded?.map List.length

/-- Why the last attempt to load failed. -/
def lastError (c : Collection) : Option String :=
  match c.state with
  | .failed e => some e.message
  | _ => none

/-- The word for what is in memory. -/
def stateName (c : Collection) : String :=
  match c.state with
  | .unloaded => "unloaded"
  | .loaded _ => "loaded"
  | .failed _ => "failed"

/-- The collection in diagnostics. -/
def describe (c : Collection) : String :=
  "Collection \x7b name: " ++ Diagnostic.quoted c.name ++ ", path: " ++ Diagnostic.quoted c.path
    ++ ", .. \x7d"

-- ---------------------------------------------------------------------------
-- The file
-- ---------------------------------------------------------------------------

/-- The files with these records in the collection's file. -/
def writeFile (c : Collection) (records : List Record) (files : FileTree) : Option FileTree :=
  files.writeFile? c.path (.text (RecordFile.text records))

/-- The files with an empty collection file where there was none, and whether that worked. -/
def ensureFile (c : Collection) (files : FileTree) : FileTree × Bool :=
  -- asked before the directories are made, which may change what the path names
  if files.fileExists c.path then (files, true)
  else
    let (files, made) := files.createParent c.path
    if made then
      match c.writeFile [] files with
      | some files => (files, true)
      | none => (files, false)
    else (files, false)

/-- The records in the collection's file. -/
def parseFile (c : Collection) (files : FileTree) : Except StoreError (List Record) :=
  match files.readText? c.path with
  | none => .error .file
  | some text =>
    match RecordFile.read? text with
    | none => .error .json
    | some records => .ok records

/-- The warning for a stored record that does not fit the schema. -/
def issueWarning (c : Collection) (issue : Validation.Issue) : String :=
  "Collection '" ++ c.name ++ "' record #" ++ toString issue.index ++ " (" ++
    issue.id.getD "no id" ++ "): " ++ "; ".intercalate issue.messages

/-- Reads the records from the file, which is made if it is missing, and warns of those that do
not fit the schema. -/
def readFile (c : Collection) (w : World) : Except StoreError (List Record) × World :=
  -- the file may have been made even if reading it fails afterwards
  let (files, made) := c.ensureFile w.files
  let w := { w with files := files }
  if made then
    match c.parseFile files with
    | .ok records =>
      (.ok records, w.warn ((Validation.checkIntegrity c.schema records).map c.issueWarning))
    | .error e => (.error e, w)
  else (.error .file, w)

/-- Reads the records into memory unless they are there. -/
def load (c : Collection) (w : World) : Outcome (List Record) :=
  match c.state with
  | .loaded records => ⟨.ok records, c, w⟩
  -- a load that failed before is tried again
  | _ =>
    match c.readFile w with
    | (.ok records, w) => ⟨.ok records, { c with state := .loaded records }, w⟩
    | (.error e, w) => ⟨.error e, { c with state := .failed e }, w⟩

-- ---------------------------------------------------------------------------
-- Operations on the loaded records
-- ---------------------------------------------------------------------------

/-- An operation that answers from the records. -/
def reading {α : Type} (c : Collection) (w : World) (f : List Record → α) : Outcome α :=
  let o := c.load w
  { o with answer := o.answer.map f }

/-- What an operation makes of the records: it keeps them, or replaces them. -/
inductive Change (α : Type) where
  | keep (answer : α)
  | replace (records : List Record) (answer : α)

/-- The supply that new ids come from. -/
def idSupply (c : Collection) (w : World) : IdSupply := c.ownIds.getD w.ids

/-- The collection and the world with another state of that supply. -/
def withIdSupply (c : Collection) (w : World) (ids : IdSupply) : Collection × World :=
  match c.ownIds with
  | some _ => ({ c with ownIds := some ids }, w)
  | none => (c, { w with ids := ids })

/-- Puts a change into effect: the file first, then memory. -/
def commit {α : Type} (c : Collection) (w : World) (change : Change α) : Outcome α :=
  match change with
  | .keep answer => ⟨.ok answer, c, w⟩
  | .replace records answer =>
    match c.writeFile records w.files with
    -- memory keeps the records that are still in the file
    | none => ⟨.error .file, c, w⟩
    | some files => ⟨.ok answer, { c with state := .loaded records }, { w with files := files }⟩

/-- An operation that may replace the records. Ids it takes from the supply are used up even if it
fails. -/
def writing {α : Type} (c : Collection) (w : World)
    (f : List Record → IdSupply → Except StoreError (Change α) × IdSupply) : Outcome α :=
  let o := c.load w
  match o.answer with
  | .error e => { o with answer := .error e }
  | .ok records =>
    let (result, ids) := f records (o.collection.idSupply o.world)
    let (c, w) := o.collection.withIdSupply o.world ids
    match result with
    | .error e => ⟨.error e, c, w⟩
    | .ok change => commit c w change

end Collection

end DocStore
