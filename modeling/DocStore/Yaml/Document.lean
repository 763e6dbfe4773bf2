import DocStore.Yaml.Node
/-!
# YAML documents

A text holds at most one document. What aliases stand for is looked up while a document is read, so
that an alias may stand for a node it is part of, as long as nobody reads that part. A reading may
follow a hundred aliases for every node of the document.

* `readDocument?`: the document in a text.
* `Document.target`: the node that a node stands for.
-/

namespace DocStore

namespace Yaml

namespace Node

mutual

/-- A node and those in it, in the order in which they start, and other nodes after them. -/
def partsThen : Node → List Node → List Node
  | sequence p items, after => sequence p items :: itemPartsThen items after
  | mapping p entries, after => mapping p entries :: entryPartsThen entries after
  | n, after => n :: after

def itemPartsThen : List Node → List Node → List Node
  | [], after => after
  | n :: rest, after => partsThen n (itemPartsThen rest after)

def entryPartsThen : List (Node × Node) → List Node → List Node
  | [], after => after
  | (k, v) :: rest, after => partsThen k (partsThen v (entryPartsThen rest after))

end

/-- A node and those in it, in the order in which they start. -/
def parts (n : Node) : List Node := n.partsThen []

/-- The number of the anchor of a node. -/
def anchor? : Node → Option Nat
  | scalar p _ _ | sequence p _ | mapping p _ => p.anchor
  | aliasOf _ => none

/-- How many marks a node has of its own: a collection has a start and an end. -/
def marks : Node → Nat
  | scalar _ _ _ | aliasOf _ => 1
  | sequence _ _ | mapping _ _ => 2

end Node

/-- A document: its root, what aliases stand for by number, and how many of them a reading may
follow. -/
structure Document where
  root : Node
  targets : List (Nat × Node)
  aliasLimit : Nat

/-- A reading of a document. It may fail, and it counts down the aliases that it may still
follow. -/
abbrev Reading := StateT Nat Option

namespace Document

/-- The document with this root. -/
def ofRoot (root : Node) : Document :=
  let parts := root.parts
  { root := root
    targets := (parts.filterMap fun n => n.anchor?.map fun a => (a, n)).reverse
    aliasLimit := 100 * parts.foldl (fun n part => n + part.marks) 0 }

/-- The node that a node stands for. -/
def target (d : Document) : Node → Reading Node
  | .aliasOf a => do
    match ← get, List.lookup a d.targets with
    | left + 1, some n => do
      set left
      pure n
    | _, _ => failure
  | n => pure n

/-- What a reading of the document answers. -/
def read? {α : Type} (d : Document) (r : Reading α) : Option α :=
  (r.run d.aliasLimit).map Prod.fst

end Document

-- ---------------------------------------------------------------------------
-- The document in a text
-- ---------------------------------------------------------------------------

/-- Reads the directives before a document: at most one on the version, and one per tag handle. -/
def readDirectives : Bool → List (String × String) → List Token →
    Option (List (String × String) × List Token)
  | version, handles, .versionDirective :: rest =>
    if version then none else readDirectives true handles rest
  | version, handles, .tagDirective h m :: rest =>
    if (List.lookup h handles).isSome then none else readDirectives version ((h, m) :: handles) rest
  | _, handles, rest => some (handles, rest)

/-- Reads the root node of a document. -/
def readRoot (handles : List (String × String)) (tokens : List Token) :
    Option (Node × List Token) :=
  let ctx : Context := ⟨handles ++ Context.standardHandles, []⟩
  (readNode true false (4 * tokens.length + 4) ctx tokens).map fun (n, _, rest) => (n, rest)

/-- Reads what a document with a marked start holds; it may be nothing. -/
def readContent (handles : List (String × String)) (tokens : List Token) :
    Option (Node × List Token) :=
  match tokens with
  | [] | .versionDirective :: _ | .tagDirective _ _ :: _ | .documentStart :: _
  | .documentEnd :: _ => some (Node.empty, tokens)
  | _ => readRoot handles tokens

/-- Passes over the ends of documents. -/
def skipEnds (tokens : List Token) : List Token := tokens.dropWhile (· = .documentEnd)

/-- The document that starts with these tokens, if nothing but ends of documents follows it. -/
def onlyDocument? (r : Option (Node × List Token)) : Option Document := do
  let (n, rest) ← r
  if (skipEnds rest).isEmpty then some (Document.ofRoot n) else none

/-- The document in a text. A text without any is one in which the root is left out. -/
def readDocument? (text : String) : Option Document := do
  let tokens ← tokens? text
  match tokens with
  | [] => some (Document.ofRoot Node.empty)
  | .versionDirective :: _ | .tagDirective _ _ :: _ | .documentStart :: _ => do
    let (handles, rest) ← readDirectives false [] tokens
    match rest with
    | .documentStart :: rest => onlyDocument? (readContent handles rest)
    | _ => none
  | _ => onlyDocument? (readRoot [] tokens)

end Yaml

end DocStore
