import DocStore.CommandLine.Run
import DocStore.Relational.Script
import Std.Time.DateTime.Timestamp
/-!
# The command line on disk

Reads the files that a command may need into a tree, carries out the command there, and writes back
what has changed. A database is written as the statements that make it.
-/

namespace DocStore

namespace Disk

/-- The path of a place. -/
def pathOf (p : Place) : String := "/" ++ "/".intercalate p

/-- A file on disk. One that cannot be read holds no text. -/
def fileNode (path : String) : IO Node := do
  try
    let bytes ← IO.FS.readBinFile path
    match String.fromUTF8? bytes with
    | some s => return .text s
    | none => return .bytes bytes.toList
  catch _ => return .bytes [0xff]

/-- What stands at a place on disk. -/
def node? (p : Place) : IO (Option Node) := do
  try
    let real ← IO.FS.realPath (pathOf p)
    if ← real.isDir then return some .directory
    else return some (← fileNode real.toString)
  catch _ => return none

/-- Reads what stands along a path, name by name from a place. -/
def readAlong (t : FileTree) (place : Place) : List String → IO FileTree
  | [] => return t
  | ".." :: rest => readAlong t place.dropLast rest
  | name :: rest => do
    let place := place ++ [name]
    match ← node? place with
    | some n => readAlong (t.put place n) place rest
    | none => readAlong t place rest

/-- Reads what stands along a path. -/
def read (t : FileTree) (path : String) : IO FileTree :=
  readAlong t (t.start path) (FileTree.steps path)

/-- The names of the collection files in a directory. -/
def collectionFiles (dir : String) : IO (List String) := do
  try
    let real ← IO.FS.realPath dir
    let entries ← real.readDir
    return (entries.toList.map fun e => e.fileName).filter fun n => n.endsWith ".json"
  catch _ => return []

/-- The working directory on disk. -/
def current : IO Place := do
  let dir ← IO.currentDir
  return FileTree.steps dir.toString

/-- The path of the file that a database is kept in, without slashes at its end. -/
def pathOfAddress? (address : String) : Option String :=
  match Address.read address with
  | .ok (.file path _) => some (path.dropEndWhile '/').toString
  | _ => none

/-- Reads the files that a command may need. -/
def filesFor (i : CommandLine.Invocation) : IO FileTree := do
  let config := Config.ofDir i.dataDir
  let names ← collectionFiles i.dataDir
  let here ← current
  let mut t ← readAlong (FileTree.fresh here) [] here
  for path in config.schemaPath :: names.map (Config.join config.dataDir) do
    t ← read t path
  for path in (i.command.database?.bind pathOfAddress?).toList do
    for ending in ["", "-journal", "-wal"] do
      t ← read t (path ++ ending)
  return t

/-- Writes what has changed between two trees. -/
def write (before after : FileTree) : IO Unit := do
  for p in FileTree.removals before after do
    IO.FS.removeFile (pathOf p)
  for (p, n) in FileTree.changes before after do
    match n with
    | .directory => IO.FS.createDirAll (pathOf p)
    | .text s => IO.FS.writeFile (pathOf p) s
    | .bytes _ => pure ()
    | .database db => IO.FS.writeFile (pathOf p) db.script

/-- A number of random bits. -/
def randomBits (bytes : Nat) : IO Nat := do
  let bs ← IO.getRandomBytes bytes.toUSize
  return bs.toList.foldl (fun n b => n * 256 + b.toNat) 0

/-- The world that a command is carried out in. -/
def world (i : CommandLine.Invocation) : IO World := do
  let now ← Std.Time.Timestamp.now
  let seed ← randomBits 16
  let words ← (List.replicate 256 ()).mapM fun _ => randomBits 4
  return {
    files := ← filesFor i
    clock := (now.toNanosecondsSinceUnixEpoch.val / 1000).toNat
    ids := IdSupply.ofBits seed
    random := .cycling (words.map Nat.toUInt32)
    warnings := [] }

end Disk

namespace CommandLine

/-- The environment variable that names the directory of the store. -/
def dataDirVariable : String := "DOCSTORE_DATA_DIR"

def versionText : String := "docstore 0.1.0\n"

/-- How a command line is written. -/
def helpText : String :=
  "Usage: docstore [--data-dir DIR] [--format yaml|json] COMMAND\n\nCommands:\n" ++
    String.join (names.map fun n => "  " ++ n ++ "\n")

/-- Says why a command line is refused. The answer is the exit code. -/
def refuse (r : Refusal) : IO UInt32 :=
  match r with
  | .help => do
    IO.print helpText
    return 0
  | .version => do
    IO.print versionText
    return 0
  | r => do
    IO.eprint ("error: " ++ r.message ++ "\n\n" ++ helpText)
    return 2

/-- Carries out a command on disk. The answer is the exit code. -/
def runOnDisk (i : Invocation) : IO UInt32 := do
  let before ← Disk.world i
  let (response, after) := i.run before
  Disk.write before.files after.files
  match response with
  | .printed s =>
    IO.print s
    return 0
  | .failed f =>
    IO.eprint ("ERROR:" ++ f.message ++ "\n")
    return 1
  | .refused r => refuse r

end CommandLine

end DocStore

open DocStore in
/-- Carries out a command line. -/
def main (args : List String) : IO UInt32 := do
  let environment ← IO.getEnv CommandLine.dataDirVariable
  match CommandLine.Invocation.read environment args with
  | .error r => CommandLine.refuse r
  | .ok i => CommandLine.runOnDisk i
