import DocStore.CommandLine.Arguments
import DocStore.Config
/-!
# Commands

What can be asked of a store on a command line, and how it is written. Options for the store as a
whole stand before the name of the command, those of the command behind it.

* `commands`: every command with the arguments it takes.
* `Invocation.read`: a command line, or why it is refused.
-/

namespace DocStore

namespace CommandLine

/-- What is asked of a store. Fields and filters are pairs of a name and a value. -/
inductive Command where
  | insert (collection : String) (fields : List (String × String)) (json : Option String)
  | get (collection id : String)
  | findOne (collection : String) (filters : List (String × String))
  | find (collection : String) (filters : List (String × String))
  | update (collection id : String) (fields : List (String × String))
  | upsert (collection : String) (filters fields : List (String × String))
  /-- With `dryRun` the record is only shown. -/
  | delete (collection id : String) (dryRun : Bool)
  | list (collection : String)
  | aggregate (collection pipeline : String)
  | validate
  | status
  /-- Copies a collection into a table, by default one of its own name, of a database file. -/
  | exportTo (collection database : String) (table : Option String)

/-- How a command is written, and the command that its arguments make. -/
structure CommandForm where
  name : String
  form : Form
  command : Given → Command

def fieldOption : OptionForm := ⟨"field", .many .pair, false⟩

def filterOption : OptionForm := ⟨"filter", .many .pair, false⟩

/-- Every command. -/
def commands : List CommandForm := [
  ⟨"insert", .leaf [fieldOption, ⟨"json", .single .any, false⟩] 1,
    fun g => .insert (g.place 0) (g.pairs "field") (g.value? "json")⟩,
  ⟨"get", .leaf [] 2, fun g => .get (g.place 0) (g.place 1)⟩,
  ⟨"find-one", .leaf [filterOption] 1, fun g => .findOne (g.place 0) (g.pairs "filter")⟩,
  ⟨"find", .leaf [filterOption] 1, fun g => .find (g.place 0) (g.pairs "filter")⟩,
  ⟨"update", .leaf [fieldOption] 2, fun g => .update (g.place 0) (g.place 1) (g.pairs "field")⟩,
  ⟨"upsert", .leaf [filterOption, fieldOption] 1,
    fun g => .upsert (g.place 0) (g.pairs "filter") (g.pairs "field")⟩,
  ⟨"delete", .leaf [⟨"dry-run", .flag, false⟩] 2,
    fun g => .delete (g.place 0) (g.place 1) (g.has "dry-run")⟩,
  ⟨"list", .leaf [] 1, fun g => .list (g.place 0)⟩,
  ⟨"aggregate", .leaf [] 2, fun g => .aggregate (g.place 0) (g.place 1)⟩,
  ⟨"validate", .leaf [] 0, fun _ => .validate⟩,
  ⟨"status", .leaf [] 0, fun _ => .status⟩,
  ⟨"export", .leaf [⟨"sqlite", .single .notEmpty, true⟩, ⟨"table", .single .any, false⟩] 1,
    fun g => .exportTo (g.place 0) ((g.value? "sqlite").getD "") (g.value? "table")⟩]

/-- The database file a command writes to. -/
def Command.database? : Command → Option String
  | .exportTo _ database _ => some database
  | _ => none

-- ---------------------------------------------------------------------------
-- The whole command line
-- ---------------------------------------------------------------------------

/-- The format of what is printed. -/
inductive OutputFormat where
  | yaml | json
deriving DecidableEq

/-- A command, the directory of the store, and the format of the output. -/
structure Invocation where
  dataDir : String
  format : OutputFormat
  command : Command

/-- The name of the command that asks for help. -/
def helpName : String := "help"

/-- The names of all commands. -/
def names : List String := commands.map CommandForm.name ++ [helpName]

/-- What stands before the name of the command. -/
def storeForm : Form where
  options := [⟨"data-dir", .single .notEmpty, false⟩,
    ⟨"format", .single (.oneOf ["yaml", "json"]), false⟩]
  places := 0
  versioned := true
  commands := names

namespace Invocation

/-- The directory where none is named. -/
def defaultDir : String := "."

/-- The directory that an option names, or else the environment. -/
def dataDirOf (g : Given) (environment : Option String) : Except Refusal String :=
  match g.value? "data-dir", environment with
  | some dir, _ => .ok dir
  | none, some "" => .error .badValue
  | none, some dir => .ok dir
  | none, none => .ok defaultDir

def formatOf (g : Given) : OutputFormat := if g.value? "format" = some "json" then .json else .yaml

/-- The answer to a call for help on some commands: there are none below another. -/
def helpOn (args : List String) : Refusal :=
  match args with
  | [] => .help
  | [name] => if names.contains name then .help else .unknownCommand
  | _ => .unknownCommand

/-- Reads a command line. `environment` is the directory that the environment names. The arguments
of the command are checked before the options of the store. -/
def read (environment : Option String) (args : List String) : Except Refusal Invocation := do
  let (s, found) ← Scan.takeAll storeForm Scan.start args
  match found with
  | none =>
    let s ← s.settle
    let _ ← dataDirOf s.given environment
    if s.given.options.isEmpty && environment.isNone then .error .nothing
    else .error .missingCommand
  | some (name, rest) =>
    match commands.find? fun c => c.name == name with
    | none => .error (helpOn rest)
    | some c =>
      let given ← Given.read c.form rest
      let s ← s.settle
      let dir ← dataDirOf s.given environment
      .ok ⟨dir, formatOf s.given, c.command given⟩

end Invocation

end CommandLine

end DocStore
