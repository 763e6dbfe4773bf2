import DocStore.Text
/-!
# Arguments of a command line

Options and places for values, and which of them a command takes. Arguments are taken one after the
other: a word with dashes is an option, the word after an option that takes a value is that value,
and any other word goes to the next place. After two dashes alone every word goes to a place. The
value of an option is checked when the argument behind it is taken.

* `Form`: the options and places of a command.
* `Given.read`: the arguments of a command, or why they are refused.
-/

namespace DocStore

namespace CommandLine

/-- Why a command line is not carried out. -/
inductive Refusal where
  | unknownCommand
  | unknownArgument
  | missingArgument
  | missingCommand
  /-- An option lacks its value, or does not take this one. -/
  | badValue
  /-- A value is no name and value with an equals sign between them. -/
  | notPair
  | valueForFlag
  /-- An option that counts once is given twice. -/
  | repeated
  /-- Help is asked for. -/
  | help
  /-- The version is asked for. -/
  | version
  /-- Nothing is asked for at all. -/
  | nothing
deriving DecidableEq

def Refusal.message : Refusal → String
  | .unknownCommand => "there is no such command"
  | .unknownArgument => "an argument is not expected"
  | .missingArgument => "an argument is missing"
  | .missingCommand => "a command is missing"
  | .badValue => "an option lacks its value or does not take it"
  | .notPair => "a field or filter has to be a name and a value with '=' between them"
  | .valueForFlag => "an option takes no value"
  | .repeated => "an option is given twice"
  | .help => "help"
  | .version => "version"
  | .nothing => "nothing is asked for"

-- ---------------------------------------------------------------------------
-- Options
-- ---------------------------------------------------------------------------

/-- A name and a value, cut at the first equals sign. -/
def pair? (s : String) : Option (String × String) :=
  match Text.cut '=' s.toList with
  | (name, some value) => some (String.ofList name, String.ofList value)
  | (_, none) => none

/-- The values an option takes. -/
inductive ValueRule where
  | any
  | notEmpty
  | pair
  | oneOf (words : List String)

/-- Why a value is refused, if it is. -/
def ValueRule.refusal? (rule : ValueRule) (value : String) : Option Refusal :=
  match rule with
  | .any => none
  | .notEmpty => if value = "" then some .badValue else none
  | .pair => if (pair? value).isSome then none else some .notPair
  | .oneOf words => if words.contains value then none else some .badValue

/-- How often an option may be given, and with which values. -/
inductive OptionKind where
  | flag
  | single (rule : ValueRule)
  | many (rule : ValueRule)

/-- An option of a command. -/
structure OptionForm where
  name : String
  kind : OptionKind
  required : Bool

/-- What a command takes: its options, the number of its places, whether it tells its version, and
the commands below it. -/
structure Form where
  options : List OptionForm
  places : Nat
  versioned : Bool
  commands : List String

/-- A command of these options and places. -/
def Form.leaf (options : List OptionForm) (places : Nat) : Form := ⟨options, places, false, []⟩

-- ---------------------------------------------------------------------------
-- What is given
-- ---------------------------------------------------------------------------

/-- The options and the words in places that are given, in order. -/
structure Given where
  options : List (String × String)
  places : List String

namespace Given

def empty : Given := ⟨[], []⟩

def has (g : Given) (name : String) : Bool := g.options.any fun o => o.1 == name

/-- The values of an option. -/
def values (g : Given) (name : String) : List String :=
  (g.options.filter fun o => o.1 == name).map Prod.snd

/-- The value of an option that is given once at most. -/
def value? (g : Given) (name : String) : Option String := (g.values name).head?

/-- The values of an option, each cut into a name and a value. -/
def pairs (g : Given) (name : String) : List (String × String) := (g.values name).filterMap pair?

/-- The word in a place; a place that is left out holds an empty one. -/
def place (g : Given) (i : Nat) : String := g.places.getD i ""

/-- Adds an option with its value. -/
def addOption (g : Given) (o : OptionForm) (value : String) : Except Refusal Given :=
  let added : Given := { g with options := g.options ++ [(o.name, value)] }
  let checked (rule : ValueRule) : Except Refusal Given :=
    match rule.refusal? value with
    | some r => .error r
    | none => .ok added
  match o.kind with
  | .flag => if g.has o.name then .error .repeated else .ok added
  | .single rule => if g.has o.name then .error .repeated else checked rule
  | .many rule => checked rule

/-- Whether every place and every required option is given. -/
def fills (g : Given) (f : Form) : Bool :=
  g.places.length == f.places && f.options.all fun o => !o.required || g.has o.name

end Given

-- ---------------------------------------------------------------------------
-- Taking arguments
-- ---------------------------------------------------------------------------

/-- The look of an argument. -/
inductive Word where
  /-- Two dashes alone. -/
  | separator
  | long (name : String) (value : Option String)
  | short (letter : Char)
  | text

/-- The look of an argument. A dash alone is a text. -/
def Word.of (arg : String) : Word :=
  match arg.toList with
  | ['-', '-'] => .separator
  | '-' :: '-' :: rest =>
    let (name, value) := Text.cut '=' rest
    .long (String.ofList name) (value.map String.ofList)
  | '-' :: c :: _ => .short c
  | _ => .text

/-- The state between two arguments. -/
structure Scan where
  given : Given
  /-- The option before, unless its value is checked already; without value it waits for one. -/
  pending : Option (OptionForm × Option String)
  /-- Whether all further words go to places. -/
  trailing : Bool

namespace Scan

def start : Scan := ⟨Given.empty, none, false⟩

/-- Whether the next word is the value of an option. -/
def isWaiting (s : Scan) : Bool :=
  match s.pending with
  | some (_, none) => true
  | _ => false

/-- Checks the option before. -/
def settle (s : Scan) : Except Refusal Scan :=
  match s.pending with
  | none => .ok s
  | some (_, none) => .error .badValue
  | some (o, some value) => do
    let g ← s.given.addOption o value
    .ok { s with given := g, pending := none }

/-- Takes an option that is complete as it stands. -/
def complete (s : Scan) (o : OptionForm) (value : String) : Except Refusal Scan := do
  let s ← s.settle
  let g ← s.given.addOption o value
  .ok { s with given := g }

/-- Takes an option by its name. -/
def long (f : Form) (s : Scan) (name : String) (value : Option String) : Except Refusal Scan :=
  let asking (r : Refusal) : Except Refusal Scan :=
    if value.isSome then .error .valueForFlag
    else do
      let _ ← s.settle
      .error r
  if name = "help" then asking .help
  else if name = "version" ∧ f.versioned then asking .version
  else
    match f.options.find? fun o => o.name == name with
    | none => .error .unknownArgument
    | some o =>
      match o.kind, value with
      | .flag, some _ => .error .valueForFlag
      | .flag, none => s.complete o ""
      | _, some v => s.complete o v
      | _, none => do
        let s ← s.settle
        .ok { s with pending := some (o, none) }

/-- Takes an option by its letter: there are only those for help and for the version. -/
def short (f : Form) (s : Scan) (letter : Char) : Except Refusal Scan :=
  if letter = 'h' then do
    let _ ← s.settle
    .error .help
  else if letter = 'V' ∧ f.versioned then do
    let _ ← s.settle
    .error .version
  else .error .unknownArgument

/-- Puts a word into the next place. -/
def place (f : Form) (s : Scan) (arg : String) : Except Refusal Scan :=
  if s.given.places.length < f.places then do
    let s ← s.settle
    .ok { s with given := { s.given with places := s.given.places ++ [arg] } }
  else if f.commands.isEmpty || (s.trailing && f.commands.contains arg) then
    .error .unknownArgument
  else .error .unknownCommand

/-- Takes an argument. -/
def take (f : Form) (s : Scan) (arg : String) : Except Refusal Scan :=
  if s.trailing then s.place f arg
  else
    match Word.of arg, s.pending with
    | .separator, _ => .ok { s with trailing := true }
    | .long name value, _ => s.long f name value
    | .short letter, _ => s.short f letter
    | .text, some (o, none) => .ok { s with pending := some (o, some arg) }
    | .text, _ => s.place f arg

/-- Takes arguments up to their end or to the name of a command, which is answered with the
arguments behind it. -/
def takeAll (f : Form) : Scan → List String → Except Refusal (Scan × Option (String × List String))
  | s, [] => .ok (s, none)
  | s, arg :: rest =>
    -- a word that an option waits for is its value, even if it names a command
    if !s.trailing && !s.isWaiting && f.commands.contains arg then .ok (s, some (arg, rest))
    else
      match s.take f arg with
      | .error r => .error r
      | .ok s => takeAll f s rest

end Scan

/-- The arguments of a command without commands below it. -/
def Given.read (f : Form) (args : List String) : Except Refusal Given := do
  let (s, _) ← Scan.takeAll f Scan.start args
  let s ← s.settle
  if s.given.fills f then .ok s.given else .error .missingArgument

end CommandLine

end DocStore
