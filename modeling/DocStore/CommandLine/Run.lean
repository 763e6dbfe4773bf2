import DocStore.CommandLine.Command
import DocStore.Export
import DocStore.Relational.File
import DocStore.Store
import DocStore.Yaml.Writer
/-!
# Carrying out a command

Each command opens the store anew, performs one operation and prints its answer as one value.

* `Command.run`: what a command answers.
* `respond`: what a command line prints.
-/

namespace DocStore

namespace CommandLine

/-- Why a command gives no answer. -/
inductive Failure where
  | store (error : StoreError)
  /-- An argument that has to be JSON is not. -/
  | badJson

def Failure.message : Failure → String
  | .store e => e.message
  | .badJson => "an argument is no JSON"

/-- What a step of a command answers, with the store and the world after it. -/
abbrev Step (α : Type) := Store → World → Except Failure α × Store × World

namespace Step

/-- Goes on with the answer of a step, if there is one. -/
def andThen {α β : Type} (first : Step α) (next : α → Step β) : Step β := fun s w =>
  match first s w with
  | (.error e, s, w) => (.error e, s, w)
  | (.ok a, s, w) => next a s w

def answer {α : Type} (a : α) : Step α := fun s w => (.ok a, s, w)

def fail {α : Type} (e : Failure) : Step α := fun s w => (.error e, s, w)

/-- Answers what is there, or fails. -/
def ofOption {α : Type} (e : Failure) : Option α → Step α
  | some a => answer a
  | none => fail e

/-- The handle of a collection. -/
def handle (name : String) : Step Handle := fun s w =>
  match s.collection name with
  | .error e => (.error (.store e), s, w)
  | .ok (h, s) => (.ok h, s, w)

/-- The schema of a collection. -/
def schema (name : String) : Step Schema :=
  (handle name).andThen fun h s w =>
    match s.get? h with
    | some c => (.ok c.schema, s, w)
    | none => (.error (.store (.schema (.unknown name))), s, w)

/-- Performs an operation on a collection. -/
def perform (name : String) (op : Collection.Operation) : Step Collection.Answer :=
  (handle name).andThen fun h s w =>
    match s.perform? w h op with
    | some (r, s, w) => (r.mapError .store, s, w)
    | none => (.error (.store (.schema (.unknown name))), s, w)

end Step

-- ---------------------------------------------------------------------------
-- Values of arguments
-- ---------------------------------------------------------------------------

/-- The value a text stands for: the JSON value, or else the text itself. -/
def valueOf (text : String) : Json := (Json.read? text).getD (.string text)

/-- The record of pairs of a name and a value. The last value of a name counts. -/
def recordOf (pairs : List (String × String)) : Record :=
  Fields.ofPairs (pairs.map fun (name, text) => (name, valueOf text))

/-- The value to insert: that of the JSON text, or an empty record, with fields set in it if it is
a record. -/
def insertion (json : Option String) (fields : List (String × String)) : Option Json := do
  let value ← match json with
    | some text => Json.read? text
    | none => some (.object [])
  match value with
  | .object members => some (.object (Fields.merge members (recordOf fields)))
  | v => some v

/-- The value that an answer is printed as. -/
def answerJson : Collection.Answer → Json
  | .done | .record none => .null
  | .count n => .nat n
  | .record (some r) => .object r
  | .records rs => .array (rs.map .object)
  | .issues is => .array (is.map Store.issueJson)

-- ---------------------------------------------------------------------------
-- Commands
-- ---------------------------------------------------------------------------

namespace Command

/-- Performs an operation on a collection and answers its value. -/
def ask (collection : String) (op : Collection.Operation) : Step Json :=
  (Step.perform collection op).andThen fun a => Step.answer (answerJson a)

/-- Performs an operation on the record of an id, which must be there. -/
def askFor (collection id : String) (op : Collection.Operation) : Step Record :=
  (Step.perform collection op).andThen fun
    | .record (some r) => Step.answer r
    | _ => Step.fail (.store (.notFound collection id))

/-- What the deletion of a record would do. -/
def dryRunJson (collection id : String) (r : Record) : Json :=
  .object [
    ("dry_run", .bool true),
    ("would_delete", .object [("collection", .string collection), ("id", .string id)]),
    ("record", .object r)]

def deletedJson (id : String) : Json := .object [("ok", .bool true), ("deleted", .string id)]

/-- A database with a table for the records of a schema. -/
def openTable (address table : String) (schema : Schema) : Step Connection := fun s w =>
  let (c, files) := Connection.openWith w.files address table schema.columns
  (c.mapError fun fault => .store (.table fault), s, { w with files := files })

/-- Exports records into a table of a database. -/
def exportRows (c : Connection) (table : String) (records : List Record) : Step Json :=
  fun s w =>
    let (report, db) := exportRecords (databaseSink c.access) table c.database records
    (.ok report.toJson, s, { w with files := c.save db w.files }.warn report.warnings)

/-- Exports a collection into a table of a database. -/
def exportInto (collection address table : String) : Step Json :=
  (Step.schema collection).andThen fun schema =>
    (openTable address table schema).andThen fun c =>
      (Step.perform collection .getAll).andThen fun
        | .records rs => exportRows c table rs
        | _ => exportRows c table []

/-- What a command answers. -/
def run : Command → Step Json
  | .insert collection fields json =>
    (Step.ofOption .badJson (insertion json fields)).andThen fun v => ask collection (.save v)
  | .get collection id =>
    (askFor collection id (.findById id)).andThen fun r => Step.answer (.object r)
  | .findOne collection filters => ask collection (.findOne (.object (recordOf filters)))
  | .find collection filters => ask collection (.find (.object (recordOf filters)))
  | .update collection id fields =>
    (askFor collection id (.update id (.object (recordOf fields)))).andThen fun r =>
      Step.answer (.object r)
  | .upsert collection filters fields =>
    ask collection (.upsert (.object (recordOf filters)) (.object (recordOf fields)))
  | .delete collection id true =>
    (askFor collection id (.findById id)).andThen fun r =>
      Step.answer (dryRunJson collection id r)
  | .delete collection id false =>
    (askFor collection id (.delete id)).andThen fun _ => Step.answer (deletedJson id)
  | .list collection => ask collection .getAll
  | .aggregate collection pipeline =>
    (Step.ofOption .badJson (Json.read? pipeline)).andThen fun v => ask collection (.aggregate v)
  | .validate => fun s w =>
    let (r, s, w) := s.validateAll w
    (r.mapError .store, s, w)
  | .status => fun s w =>
    let (r, s) := s.status
    (r.mapError .store, s, w)
  | .exportTo collection database table =>
    exportInto collection database (table.getD collection)

end Command

-- ---------------------------------------------------------------------------
-- Output
-- ---------------------------------------------------------------------------

/-- The text of a value in a format. -/
def OutputFormat.print (f : OutputFormat) (v : Json) : String :=
  match f with
  | .yaml => Yaml.write v
  | .json => v.indented ++ "\n"

/-- What comes of a command line: it is refused, fails, or prints a text. -/
inductive Response where
  | refused (reason : Refusal)
  | failed (failure : Failure)
  | printed (text : String)

/-- Opens the store and carries out a command. -/
def Invocation.run (i : Invocation) (w : World) : Response × World :=
  let (opened, files) := Store.openWith (Config.ofDir i.dataDir) w.files
  let w := { w with files := files }
  match opened with
  | .error e => (.failed (.store e), w)
  | .ok store =>
    match i.command.run store w with
    | (.error e, _, w) => (.failed e, w)
    | (.ok v, _, w) => (.printed (i.format.print v), w)

/-- What comes of a command line in a world. -/
def respond (environment : Option String) (args : List String) (w : World) : Response × World :=
  match Invocation.read environment args with
  | .error r => (.refused r, w)
  | .ok i => i.run w

end CommandLine

end DocStore
