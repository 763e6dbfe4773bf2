import DocStore.Json.Printer
/-!
# Errors

An error says what went wrong as data; the wording is in one function per kind of error. Five
coarse kinds (`ErrorKind`) tell a caller whether to mend the record, the call or the disk.
-/

namespace DocStore

-- ---------------------------------------------------------------------------
-- Rules a record can break
-- ---------------------------------------------------------------------------

/-- A rule that a record breaks. -/
inductive Violation where
  /-- What was given as a record is no object. -/
  | recordNotObject
  /-- What was given as an update is no object. -/
  | updateNotObject
  | required (field : String)
  | wrongType (field : String) (expected actual : Json.Kind)
  | unsupportedType (field type : String)
  | notUnique (field : String) (value : Json)
  /-- An id given by the caller does not have the length of an id. -/
  | idLength (id : String) (expected : Nat)
  | idTaken (id : String)
  | idNotString (value : Json)

/-- The kind of a value with its article. -/
def Json.Kind.phrase : Json.Kind → String
  | .array => "an array"
  | .object => "an object"
  | k => "a " ++ k.name

def Violation.message : Violation → String
  | .recordNotObject => "record must be a JSON object"
  | .updateNotObject => "update must be a JSON object"
  | .required field => field ++ " is required"
  | .wrongType field expected actual =>
    field ++ " must be " ++ expected.phrase ++ ", got " ++ actual.name
  | .unsupportedType field type => field ++ " has unsupported type '" ++ type ++ "'"
  | .notUnique field value => field ++ " must be unique: " ++ value.compact ++ " already exists"
  | .idLength id expected =>
    "_id must be a " ++ toString expected ++ "-character identifier, got \"" ++ id ++ "\""
  | .idTaken id => "_id must be unique: " ++ id ++ " already exists"
  | .idNotString value => "_id must be a string, got " ++ value.compact

-- ---------------------------------------------------------------------------
-- Faults of a pipeline
-- ---------------------------------------------------------------------------

/-- What is wrong with the description of a pipeline. -/
inductive StageFault where
  | notArray
  | notOneKey (description : Json)
  | notObject (stage : String) (given : Json)
  | notCount (stage : String) (given : Json)
  | notSum (output : String) (given : Json)
  | sumOperand (output : String) (given : Json)
  | projectSource (output : String) (given : Json)
  | sortFields (count : Nat)
  | sortDirection (field : String) (given : Json)

def StageFault.message : StageFault → String
  | .notArray => "pipeline must be an array of stages"
  | .notOneKey d => "stage must be an object with exactly one key, got " ++ d.compact
  | .notObject stage p => stage ++ " expects an object, got " ++ p.compact
  | .notCount stage p => stage ++ " expects a non-negative integer, got " ++ p.compact
  | .notSum output op =>
    "$group accumulator '" ++ output ++ "' must be \x7b\"$sum\": ...\x7d, got " ++ op.compact
  | .sumOperand output x =>
    "$sum operand for '" ++ output ++ "' must be a \"$field\" or a number, got " ++ x.compact
  | .projectSource output x =>
    "$project value for '" ++ output ++ "' must be a field name or 1, got " ++ x.compact
  | .sortFields n => "$sort expects exactly one field, got " ++ toString n
  | .sortDirection field x =>
    "$sort direction for '" ++ field ++ "' must be 1 or -1, got " ++ x.compact

-- ---------------------------------------------------------------------------
-- Faults of a call
-- ---------------------------------------------------------------------------

/-- What is wrong with the schema a collection is asked for with. -/
inductive SchemaFault where
  /-- The name is bound to another schema already. -/
  | rebound (collection : String)
  | unknown (collection : String)

def SchemaFault.message : SchemaFault → String
  | .rebound name => "Collection '" ++ name ++ "' is already registered with a different schema"
  | .unknown name => "Collection '" ++ name ++ "' not found in schema"

/-- An argument outside its domain. -/
inductive ArgumentFault where
  | queryNotObject (given : Json)
  | collectionName (name : String)

def ArgumentFault.message : ArgumentFault → String
  | .queryNotObject v => "query must be a JSON object, got " ++ v.compact
  | .collectionName name => "invalid collection name '" ++ name ++ "'"

-- ---------------------------------------------------------------------------
-- Faults of a relational table
-- ---------------------------------------------------------------------------

/-- What is wrong with the address of a database. -/
inductive AddressFault where
  /-- There is a NUL at this byte. -/
  | nul (position : Nat)
  /-- The file is said to be on another host. -/
  | authority (host : String)
  /-- There is no such mode of access. -/
  | noAccess (mode : String)
  /-- The mode allows more than an earlier one. -/
  | accessNotAllowed (mode : String)
  /-- There is no such way to share what is kept in memory. -/
  | noCache (mode : String)
  /-- There are no files of this system. -/
  | noFileSystem (name : String)

def AddressFault.message : AddressFault → String
  | .nul position => "nul byte found in provided data at position: " ++ toString position
  | .authority host => "invalid uri authority: " ++ host
  | .noAccess mode => "no such access mode: " ++ mode
  | .accessNotAllowed mode => "access mode not allowed: " ++ mode
  | .noCache mode => "no such cache mode: " ++ mode
  | .noFileSystem name => "no such vfs: " ++ name

/-- Why a database refuses a statement. -/
inductive TableFault where
  /-- The statement cannot be read beyond the token at this byte. -/
  | badToken (token statement : String) (offset : Nat)
  | noTable (table : String)
  | noColumn (table column : String)
  | notUnique (table column : String)
  | duplicateColumn (column : String)
  | tooManyColumns (table : String)
  /-- Only the database itself makes tables of such names. -/
  | reserved (table : String)
  /-- Only the database itself writes into this table. -/
  | notModifiable (table : String)
  /-- The number of a row is no whole number. -/
  | mismatch
  | readOnly
  /-- The changes cannot be noted down before they are made. -/
  | noJournal
  | address (fault : AddressFault)
  /-- There can be no database file at this path. -/
  | cannotOpen (path : String)
  | unreadable
  /-- A file holds something else. -/
  | notDatabase

def TableFault.message : TableFault → String
  | .badToken token statement offset =>
    "unrecognized token: \"" ++ token ++ "\" in " ++ statement ++ " at offset " ++ toString offset
  | .noTable t => "no such table: " ++ t
  | .noColumn t c => "table " ++ t ++ " has no column named " ++ c
  | .notUnique t c => "UNIQUE constraint failed: " ++ t ++ "." ++ c
  | .duplicateColumn c => "duplicate column name: " ++ c
  | .tooManyColumns t => "too many columns on " ++ t
  | .reserved t => "object name reserved for internal use: " ++ t
  | .notModifiable t => "table " ++ t ++ " may not be modified"
  | .mismatch => "datatype mismatch"
  | .readOnly => "attempt to write a readonly database"
  | .noJournal => "unable to open database file"
  | .address f => f.message
  | .cannotOpen path => "unable to open database file: " ++ path
  | .unreadable => "disk I/O error"
  | .notDatabase => "file is not a database"

/-- Why a sink refuses a row before it reaches a table. -/
inductive RowFault where
  | empty
  | refused (value : Json)

def RowFault.message : RowFault → String
  | .empty => "cannot insert an empty row"
  | .refused v => "refused " ++ v.compact

-- ---------------------------------------------------------------------------
-- Errors of the store
-- ---------------------------------------------------------------------------

/-- Everything that can go wrong in an operation of the store. -/
inductive StoreError where
  | validation (violations : List Violation)
  /-- A reference field does not hold an id. -/
  | invalidReference (field : String) (value : Json)
  | notFound (collection id : String)
  | schema (fault : SchemaFault)
  | invalidStage (fault : StageFault)
  | invalidArgument (fault : ArgumentFault)
  /-- A file or directory cannot be read or written. -/
  | file
  /-- A collection file is no JSON array of objects. -/
  | json
  /-- A schema file is no schema. -/
  | yaml
  | table (fault : TableFault)
  | row (fault : RowFault)

/-- Coarse classes of errors. -/
inductive ErrorKind where
  | validation | notFound | fileFailure | sinkFailure | usage
deriving DecidableEq

namespace StoreError

def kind : StoreError → ErrorKind
  | validation _ | invalidReference _ _ => .validation
  | notFound _ _ => .notFound
  | file | json | yaml => .fileFailure
  | table _ | row _ => .sinkFailure
  | schema _ | invalidStage _ | invalidArgument _ => .usage

/-- The heading of the message. -/
def heading : StoreError → String
  | validation _ => "Validation error"
  | invalidReference field _ => "Invalid reference in field '" ++ field ++ "'"
  | notFound _ _ => "Document not found"
  | schema _ => "Schema error"
  | invalidStage _ => "Invalid pipeline stage"
  | invalidArgument _ => "Invalid argument"
  | file => "IO error"
  | json => "JSON error"
  | yaml => "YAML error"
  | table _ => "SQLite error"
  | row _ => "Connector error"

/-- What follows the heading. Failures of files and formats say no more than their heading. -/
def detail : StoreError → String
  | validation vs => "; ".intercalate (vs.map Violation.message)
  | invalidReference _ value => "expected a 36-character id, got " ++ value.compact
  | notFound collection id => collection ++ "/" ++ id
  | schema f => f.message
  | invalidStage f => f.message
  | invalidArgument f => f.message
  | file => "the file cannot be read or written"
  | json => "the text is no array of objects"
  | yaml => "the text is no schema"
  | table f => f.message
  | row f => f.message

def message (e : StoreError) : String := e.heading ++ ": " ++ e.detail

/-- One message per broken rule, or the whole message of any other error. -/
def messages : StoreError → List String
  | validation vs => vs.map Violation.message
  | e => [e.message]

end StoreError

end DocStore
