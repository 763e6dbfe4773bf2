import DocStore.Relational.Database
import DocStore.Text
/-!
# The tree of files

Files and directories as a value: what stands at each place, a place being the list of names from
the root. A path is a text that names a place, from the root if it starts with a slash and from the
working directory otherwise. It names none if it passes through something that is no directory, or
if it is longer than a path or holds a longer name than can be stored.

* `FileTree.put` is the one way to change what stands at a place; `FileTree.node?_put_of_ne` says
  that all other places keep what they hold.
-/

namespace DocStore

/-- A place in the tree: the names from the root. -/
abbrev Place := List String

/-- What stands at a place. -/
inductive Node where
  | directory
  | text (content : String)
  /-- A file whose bytes are no text. -/
  | bytes (content : List UInt8)
  | database (content : Database)
deriving DecidableEq

/-- What stands at each place, and the working directory. The root is always a directory. -/
structure FileTree where
  nodes : List (Place × Node)
  current : Place

namespace FileTree

/-- An empty tree with this working directory. -/
def fresh (current : Place) : FileTree :=
  ⟨(List.range current.length).map (fun n => (current.take (n + 1), .directory)), current⟩

/-- What stands at a place. -/
def node? (t : FileTree) (p : Place) : Option Node :=
  if p = [] then some .directory else List.lookup p t.nodes

def isDirectory (t : FileTree) (p : Place) : Bool :=
  match t.node? p with
  | some .directory => true
  | _ => false

/-- Writes a node into a list of nodes. -/
def putNode (p : Place) (n : Node) : List (Place × Node) → List (Place × Node)
  | [] => [(p, n)]
  | (q, m) :: rest => if q = p then (q, n) :: rest else (q, m) :: putNode p n rest

/-- The tree with this node at a place. -/
def put (t : FileTree) (p : Place) (n : Node) : FileTree := { t with nodes := putNode p n t.nodes }

/-- The tree without a place and everything below it. -/
def removeAll (t : FileTree) (p : Place) : FileTree :=
  { t with nodes := t.nodes.filter fun e => !p.isPrefixOf e.1 }

-- ---------------------------------------------------------------------------
-- Paths
-- ---------------------------------------------------------------------------

/-- The names in a path; empty names and single points stand for nothing. -/
def steps (path : String) : List String :=
  (Text.split '/' path).filter fun s => s != "" && s != "."

/-- Whether a path can only name a directory: it ends in a slash or in points. -/
def endsInDirectory (path : String) : Bool :=
  match (Text.split '/' path).getLast? with
  | none => false
  | some last => last = "" || last = "." || last = ".."

/-- Where the names of a path are followed from. -/
def start (t : FileTree) (path : String) : Place :=
  if path.toList.head? = some '/' then [] else t.current

/-- Whether a name can be stored: it has at most 255 bytes. -/
def isName (name : String) : Bool := name.utf8ByteSize ≤ 255

/-- Whether a text can be a path: it has at most 4095 bytes and no NUL among them. -/
def isPath (path : String) : Bool := path.utf8ByteSize ≤ 4095 && !path.toList.contains '\x00'

/-- Follows names from a directory; two points lead to the directory above. -/
def walk (t : FileTree) (from_ : Place) : List String → Option Place
  | [] => some from_
  | name :: rest =>
    -- also a step upwards has to start in a directory
    if !t.isDirectory from_ || !isName name then none
    else if name = ".." then walk t from_.dropLast rest
    else walk t (from_ ++ [name]) rest

/-- The place a path names. Only its last name may be missing. -/
def locate (t : FileTree) (path : String) : Option Place :=
  if path = "" || !isPath path then none else t.walk (t.start path) (steps path)

/-- The directory that would hold what a path names. -/
def parent (t : FileTree) (path : String) : Option Place :=
  (t.walk (t.start path) (steps path).dropLast).filter t.isDirectory

-- ---------------------------------------------------------------------------
-- Files
-- ---------------------------------------------------------------------------

/-- What a path names, if it exists. -/
def find? (t : FileTree) (path : String) : Option Node :=
  match (t.locate path).bind t.node? with
  -- a path that ends in a slash or in points can name a directory, and nothing else
  | some .directory => some .directory
  | n => if endsInDirectory path then none else n

def fileExists (t : FileTree) (path : String) : Bool := (t.find? path).isSome

/-- The text of a file. -/
def readText? (t : FileTree) (path : String) : Option String :=
  match t.find? path with
  | some (.text s) => some s
  | _ => none

/-- The tree with a file in place of what a path names, which must be no directory. The directory
around it must exist. -/
def writeFile? (t : FileTree) (path : String) (n : Node) : Option FileTree := do
  -- only the directory directly around the file is asked for; `createParent` makes those around it
  let _ ← t.parent path
  let place ← t.locate path
  if endsInDirectory path || t.isDirectory place then none else some (t.put place n)

/-- Follows names from a directory and makes the directories that are missing. The answer is the
tree, and whether all names are those of directories now. -/
def makeDirectories (t : FileTree) (from_ : Place) : List String → FileTree × Bool
  | [] => (t, true)
  | name :: rest =>
    if name = ".." then makeDirectories t from_.dropLast rest
    else
      let place := from_ ++ [name]
      match t.node? place with
      | some .directory => makeDirectories t place rest
      -- a file is in the way
      | some _ => (t, false)
      | none =>
        if isName name then makeDirectories (t.put place .directory) place rest else (t, false)

/-- Makes the directory a path names, and those around it. -/
def createDirectory (t : FileTree) (path : String) : FileTree × Bool :=
  if isPath path then t.makeDirectories (t.start path) (steps path) else (t, false)

/-- Makes the directory around what a path names, and those around it. Only the names of
directories have to be those of a path. -/
def createParent (t : FileTree) (path : String) : FileTree × Bool :=
  let names := (steps path).dropLast
  if isPath ("/".intercalate names) then t.makeDirectories (t.start path) names else (t, false)

/-- What stands below the working directory, by path from there. -/
def contents (t : FileTree) : List (String × Node) :=
  t.nodes.filterMap fun (p, n) =>
    if t.current.isPrefixOf p && p != t.current then
      some ("/".intercalate (p.drop t.current.length), n)
    else none

/-- What a tree holds and another does not, by place. -/
def changes (before after : FileTree) : List (Place × Node) :=
  after.nodes.filter fun (p, n) => before.node? p != some n

/-- The places where a tree holds something and another does not. -/
def removals (before after : FileTree) : List Place :=
  (before.nodes.map Prod.fst).filter fun p => (after.node? p).isNone

-- ---------------------------------------------------------------------------
-- Writing one place
-- ---------------------------------------------------------------------------

theorem lookup_putNode_self (p : Place) (n : Node) (nodes : List (Place × Node)) :
    List.lookup p (putNode p n nodes) = some n := by
  induction nodes with
  | nil => simp [putNode]
  | cons e rest ih =>
    obtain ⟨q, m⟩ := e
    by_cases h : q = p
    · subst h; simp [putNode]
    · have h' : (p == q) = false := by simp [Ne.symm h]
      simp [putNode, h, List.lookup_cons, h', ih]

theorem lookup_putNode_of_ne {p q : Place} (h : q ≠ p) (n : Node) (nodes : List (Place × Node)) :
    List.lookup q (putNode p n nodes) = List.lookup q nodes := by
  have hb : (q == p) = false := by simp [h]
  induction nodes with
  | nil => simp [putNode, List.lookup_cons, hb]
  | cons e rest ih =>
    obtain ⟨r, m⟩ := e
    by_cases hr : r = p
    · subst hr; simp [putNode, List.lookup_cons, hb]
    · simp only [putNode, hr, if_false, List.lookup_cons, ih]

theorem node?_put_self (t : FileTree) {p : Place} (h : p ≠ []) (n : Node) :
    (t.put p n).node? p = some n := by
  simp [node?, put, h, lookup_putNode_self]

theorem node?_put_of_ne (t : FileTree) {p q : Place} (h : q ≠ p) (n : Node) :
    (t.put p n).node? q = t.node? q := by
  simp [node?, put, lookup_putNode_of_ne h]

end FileTree

end DocStore
