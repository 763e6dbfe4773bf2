import DocStore.Collection.Operation
import DocStore.Config
import DocStore.Schema.File
/-!
# Stores

A store hands out one handle per collection name. A name is bound to a schema on first use, either
to the one the caller gives or to the one in the schema file, and stays bound to it.

* `Store.model` and `Store.collection`: the two ways to a handle.
* `Store.perform?`: an operation through a handle.
-/

namespace DocStore

/-- A collection of a store: the place in its registry. -/
abbrev Handle := Nat

/-- A store: its directory, the schemas of its schema file by name, and the collections handed out
so far. -/
structure Store where
  config : Config
  schemas : Fields Schema
  collections : List Collection

namespace Store

/-- The schemas in a schema file; no file is no schemas. -/
def readSchemas (files : FileTree) (path : String) : Except StoreError (Fields Schema) :=
  if files.fileExists path then
    match files.readText? path with
    | none => .error .file
    | some text =>
      match SchemaFile.read? text with
      | none => .error .yaml
      | some schemas => .ok schemas
  else .ok []

/-- Opens a store, and makes its directory if it is missing. -/
def openWith (config : Config) (files : FileTree) : Except StoreError Store × FileTree :=
  let (files, made) :=
    -- an empty path is the working directory, which is there
    if config.dataDir = "" then (files, true) else files.createDirectory config.dataDir
  if made then
    match readSchemas files config.schemaPath with
    | .error e => (.error e, files)
    | .ok schemas => (.ok ⟨config, schemas, []⟩, files)
  else (.error .file, files)

-- ---------------------------------------------------------------------------
-- Handles
-- ---------------------------------------------------------------------------

/-- Control characters. -/
def isControl (c : Char) : Bool := c.toNat < 32 || (127 ≤ c.toNat && c.toNat < 160)

/-- Whether a collection may have this name: it has to be the name of a visible file. -/
def validName (name : String) : Bool :=
  name != "" && name.toList.head? != some '.' &&
    name.toList.all fun c => c != '/' && c != '\\' && !isControl c

/-- The handle of a name that is bound. -/
def handle? (s : Store) (name : String) : Option Handle :=
  s.collections.findIdx? fun c => c.name == name

/-- Binds a name to a schema. A name that is bound to the same schema keeps its handle. -/
def model (s : Store) (name : String) (schema : Schema) : Except StoreError (Handle × Store) :=
  if validName name then
    match s.collections.findIdx? fun c => c.name == name with
    | some h =>
      -- the place was just found; `none` only completes the match
      match s.collections[h]? with
      | some c => if c.schema.same schema then .ok (h, s) else .error (.schema (.rebound name))
      | none => .error (.schema (.rebound name))
    | none =>
      let c := Collection.unloaded name schema (s.config.collectionPath name)
      .ok (s.collections.length, { s with collections := s.collections ++ [c] })
  else .error (.invalidArgument (.collectionName name))

/-- The handle of a name, which is bound from the schema file if need be. -/
def collection (s : Store) (name : String) : Except StoreError (Handle × Store) :=
  match s.handle? name with
  | some h => .ok (h, s)
  | none =>
    match Fields.get? s.schemas name with
    | some schema => s.model name schema
    | none => .error (.schema (.unknown name))

/-- The names in the schema file and those bound so far, sorted. -/
def collectionNames (s : Store) : List String :=
  ((Fields.names s.schemas ++ s.collections.map Collection.name).mergeSort (· ≤ ·)).eraseReps

/-- The collection behind a handle. -/
def get? (s : Store) (h : Handle) : Option Collection := s.collections[h]?

/-- The store with another state of the collection behind a handle. -/
def put (s : Store) (h : Handle) (c : Collection) : Store :=
  { s with collections := s.collections.set h c }

/-- Performs an operation on the collection behind a handle; `none` if the store never gave it
out. -/
def perform? (s : Store) (w : World) (h : Handle) (op : Collection.Operation) :
    Option (Except StoreError Collection.Answer × Store × World) :=
  (s.get? h).map fun c =>
    let o := c.perform w op
    (o.answer, s.put h o.collection, o.world)

-- ---------------------------------------------------------------------------
-- Reports on all collections
-- ---------------------------------------------------------------------------

/-- What is in memory of a collection, as a value. -/
def stateJson (c : Collection) : Json :=
  .object [
    ("count", match c.loadedCount with
      | some n => .nat n
      | none => .null),
    ("state", .string c.stateName),
    ("path", .string c.path)]

/-- Binds each name and reports on its collection. -/
def statusOf (s : Store) : List String → Except StoreError (List (String × Json)) × Store
  | [] => (.ok [], s)
  | name :: rest =>
    match s.collection name with
    -- the names before this one stay bound
    | .error e => (.error e, s)
    | .ok (h, s) =>
      match s.get? h with
      | none => (.error (.schema (.unknown name)), s)
      | some c =>
        let (entries, s) := statusOf s rest
        (entries.map fun es => (name, stateJson c) :: es, s)

/-- What is in memory of each collection. Nothing is loaded for it. -/
def status (s : Store) : Except StoreError Json × Store :=
  let (entries, s) := s.statusOf s.collectionNames
  (entries.map fun es =>
    .object [("data_dir", .string s.config.dataDir), ("collections", .object es)], s)

/-- An issue as a value. -/
def issueJson (i : Validation.Issue) : Json :=
  .object [
    ("index", .nat i.index),
    ("id", match i.id with
      | some id => .string id
      | none => .null),
    ("messages", .array (i.messages.map .string))]

/-- What is wrong with the records of a collection, as a value. -/
def issuesJson (total : Nat) (issues : List Validation.Issue) : Json :=
  .object [
    ("total", .nat total), ("invalid", .nat issues.length),
    ("issues", .array (issues.map issueJson))]

/-- Binds each name and checks the records of its collection. -/
def validateOf (s : Store) (w : World) :
    List String → Except StoreError (List (String × Json)) × Store × World
  | [] => (.ok [], s, w)
  | name :: rest =>
    match s.collection name with
    | .error e => (.error e, s, w)
    | .ok (h, s) =>
      match s.get? h with
      | none => (.error (.schema (.unknown name)), s, w)
      | some c =>
        let o := c.checkIntegrity w
        let s := s.put h o.collection
        match o.answer with
        -- the first collection that cannot be read ends the report
        | .error e => (.error e, s, o.world)
        | .ok issues =>
          let entry := issuesJson (o.collection.loadedCount.getD 0) issues
          let (entries, s, w) := validateOf s o.world rest
          (entries.map fun es => (name, entry) :: es, s, w)

/-- What is wrong with the records of each collection. -/
def validateAll (s : Store) (w : World) : Except StoreError Json × Store × World :=
  let (entries, s, w) := s.validateOf w s.collectionNames
  (entries.map .object, s, w)

end Store

end DocStore
