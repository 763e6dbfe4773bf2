import DocStore.Error
import DocStore.Json.Reader
import DocStore.Text
/-!
# Addresses of databases

The address of a database is the path of a file, the word for a database in memory, or a text that
starts with `file:`. Such a text holds a path and options, in which a percent sign and two
hexadecimal digits stand for a byte. A byte of zero ends the part it stands in.

* `Address.read`: the place an address leads to, or what is wrong with it.
-/

namespace DocStore

/-- What may be done to a database file. -/
structure FileMode where
  /-- A file that is not there is made. -/
  creates : Bool
  writes : Bool
  /-- The file is taken never to change, so whatever lies beside it is left alone. -/
  alone : Bool
deriving DecidableEq

/-- Where a database is. -/
inductive Address where
  | memory (writes : Bool)
  | file (path : String) (mode : FileMode)
deriving DecidableEq

namespace Address

/-- The path that stands for a database in memory. -/
def memoryPath : String := ":memory:"

/-- What an address with options starts with. -/
def opening : String := "file:"

-- ---------------------------------------------------------------------------
-- Bytes for characters
-- ---------------------------------------------------------------------------

/-- The value of a hexadecimal digit. -/
def digit? (b : UInt8) : Option Nat := Json.hexValue? (Char.ofNat b.toNat)

/-- The byte that two digits stand for. -/
def byte? (high low : UInt8) : Option UInt8 := do
  let high ← digit? high
  let low ← digit? low
  some (UInt8.ofNat (16 * high + low))

/-- The bytes that a part stands for, up to the first zero. A percent sign without two digits
stands for itself. -/
def decodeBytes : List UInt8 → List UInt8
  | 0x25 :: a :: b :: rest =>
    match byte? a b with
    | some 0 => []
    | some c => c :: decodeBytes rest
    | none => 0x25 :: decodeBytes (a :: b :: rest)
  | c :: rest => c :: decodeBytes rest
  | [] => []

/-- The text of some bytes. If they are none, each byte beyond ASCII becomes a sign of its own. -/
def textOf (bytes : List UInt8) : String :=
  match String.fromUTF8? ⟨bytes.toArray⟩ with
  | some s => s
  | none => String.ofList (bytes.map fun b => if b < 128 then Char.ofNat b.toNat else '\ufffd')

/-- The text that a part of an address stands for. -/
def decode (part : List Char) : String :=
  textOf (decodeBytes (String.ofList part).toUTF8.toList)

-- ---------------------------------------------------------------------------
-- Options
-- ---------------------------------------------------------------------------

/-- An option; it has a name. -/
def option? (part : List Char) : Option (String × String) :=
  let (name, value) := Text.cut '=' part
  let name := decode name
  if name = "" then none else some (name, decode (value.getD []))

/-- The path and the options in an address, and whether it is on this host. -/
def parts (rest : List Char) : Except AddressFault (String × List (String × String)) :=
  let (host, rest) :=
    match rest with
    | '/' :: '/' :: rest => (rest.takeWhile (· ≠ '/'), rest.dropWhile (· ≠ '/'))
    | rest => ([], rest)
  if host.isEmpty || host == "localhost".toList then
    let (path, query) := Text.cut '?' (rest.takeWhile (· ≠ '#'))
    .ok (decode path, (Text.pieces '&' (query.getD [])).filterMap option?)
  else .error (.authority (String.ofList host))

/-- How far a mode of access goes. -/
inductive AccessMode where
  | read | write | create | memory
deriving DecidableEq

namespace AccessMode

def ofName? : String → Option AccessMode
  | "ro" => some read
  | "rw" => some write
  | "rwc" => some create
  | "memory" => some memory
  | _ => none

/-- What a mode asks for. -/
def demand : AccessMode → Nat
  | memory => 0
  | read => 1
  | write => 2
  | create => 3

/-- What a later mode may ask for. In memory all is allowed. -/
def reach : AccessMode → Nat
  | memory => 3
  | m => m.demand

end AccessMode

/-- How options say a database is opened. -/
structure Setting where
  access : AccessMode
  /-- The name of the system that keeps files. -/
  fileSystem : Option String

/-- The setting after an option. -/
def Setting.apply (s : Setting) (name value : String) : Except AddressFault Setting :=
  if name = "vfs" then .ok { s with fileSystem := some value }
  else if name = "cache" then
    if value = "shared" || value = "private" then .ok s else .error (.noCache value)
  else if name = "mode" then
    match AccessMode.ofName? value with
    | none => .error (.noAccess value)
    | some m =>
      if m.demand ≤ s.access.reach then .ok { s with access := m }
      else .error (.accessNotAllowed value)
  else .ok s

/-- The systems that keep files on disk. -/
def diskSystems : List String := ["unix", "unix-none", "unix-dotfile", "unix-excl"]

/-- The system that keeps files in memory. -/
def memorySystem : String := "memdb"

/-- Whether the value of an option says yes: a number other than zero, or a word. -/
def saysYes (value : String) : Bool :=
  let digits := value.toList.takeWhile Char.isDigit
  if digits.isEmpty then ["on", "yes", "true"].contains value.toLower
  else Json.digitsValue digits % 256 != 0

/-- The place that a path and options lead to. -/
def ofOptions (path : String) (options : List (String × String)) : Except AddressFault Address := do
  let s ← options.foldlM (fun s o => Setting.apply s o.1 o.2) ⟨.create, none⟩
  let inMemory ← match s.fileSystem with
    | none => .ok false
    | some name =>
      if diskSystems.contains name then .ok false
      else if name = memorySystem then .ok true
      else .error (.noFileSystem name)
  -- the first one given counts
  let alone := (List.lookup "immutable" options).any saysYes
  .ok <|
    if inMemory || s.access = .memory || path = "" || path = memoryPath then
      .memory (s.access ≠ .read)
    else .file path ⟨s.access = .create, s.access ≠ .read, alone⟩

-- ---------------------------------------------------------------------------
-- Addresses
-- ---------------------------------------------------------------------------

/-- The place an address leads to. -/
def read (address : String) : Except AddressFault Address :=
  let chars := address.toList
  let before := chars.takeWhile (· ≠ '\x00')
  if before.length < chars.length then .error (.nul (String.ofList before).utf8ByteSize)
  else if opening.toList.isPrefixOf chars then do
    let (path, options) ← parts (chars.drop opening.length)
    ofOptions path options
  else ofOptions address []

end Address

end DocStore
