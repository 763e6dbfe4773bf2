/-!
# Where a store keeps its files

A store has a data directory, which holds one file per collection, and an optional schema file in
it.

* `Config.join`: the path of a file in a directory.
-/

namespace DocStore

structure Config where
  dataDir : String
  schemaFile : String
deriving DecidableEq

namespace Config

def defaultDataDir : String := "data"

def defaultSchemaFile : String := "schema.yaml"

/-- A store in this directory, with the schema file of the default name. -/
def ofDir (dataDir : String) : Config := ⟨dataDir, defaultSchemaFile⟩

/-- A store in the directory an environment variable names, or in the default one. -/
def ofVariable (value : Option String) : Config := ofDir (value.getD defaultDataDir)

instance : Inhabited Config := ⟨ofDir defaultDataDir⟩

/-- A path below a directory. A path from the root stands for itself, and no slash is added to a
directory that is empty or ends in one. -/
def join (dir path : String) : String :=
  if path.toList.head? = some '/' then path
  else if dir = "" ∨ dir.toList.getLast? = some '/' then dir ++ path
  else dir ++ "/" ++ path

def schemaPath (c : Config) : String := join c.dataDir c.schemaFile

/-- The file of a collection. -/
def collectionPath (c : Config) (name : String) : String := join c.dataDir (name ++ ".json")

end Config

end DocStore
