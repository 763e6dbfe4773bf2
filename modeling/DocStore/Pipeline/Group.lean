import DocStore.Pipeline.Path
/-!
# Grouping

Records with the same key form a group; keys compare with `Json.sameValue`. A group becomes one
record: its key as id, and a total for each output. Totals are sums of doubles in the order of the
records, and a sum that leaves the range of doubles stays outside it.

* `Grouping.groups`: the groups in the order of their first members.
* `Grouping.run`: the records they become.
-/

namespace DocStore

/-- What records are grouped by. -/
inductive GroupKey where
  /-- The whole record. -/
  | record
  /-- The value at a path, null if there is none. -/
  | field (path : String)
  /-- All records have this key. -/
  | constant (value : Json)
  /-- Any function of the record. -/
  | computed (key : Record → Json)

namespace GroupKey

def of (key : GroupKey) (r : Record) : Json :=
  match key with
  | record => .object r
  | field path => (r.lookup path).getD .null
  | constant value => value
  | computed f => f r

end GroupKey

/-- What a record adds to a total. -/
inductive Contribution where
  /-- The number at a path; anything else counts as zero. -/
  | field (path : String)
  | constant (amount : Double)
  /-- Any function of the record; `none` lies beyond all doubles. -/
  | computed (amount : Record → Option Double)

namespace Contribution

def of (c : Contribution) (r : Record) : Option Double :=
  match c with
  | field path => some (((r.lookup path).bind Json.asDouble?).getD Double.zero)
  | constant amount => some amount
  | computed f => f r

end Contribution

/-- A key, and the outputs that are summed for each group. -/
structure Grouping where
  key : GroupKey
  outputs : List (String × Contribution)

/-- Records that share a key. -/
structure Group where
  key : Json
  members : List Record

namespace Grouping

/-- Puts a record into the first group of its key, or into a new group at the end. -/
def place (key : Json) (r : Record) : List Group → List Group
  | [] => [⟨key, [r]⟩]
  | g :: rest =>
    -- compared with the key of the first member, which stays the group's key
    if Json.sameValue g.key key then { g with members := g.members ++ [r] } :: rest
    else g :: place key r rest

/-- The groups in the order of their first members. -/
def groups (g : Grouping) (records : List Record) : List Group :=
  records.foldl (fun groups r => place (g.key.of r) r groups) []

/-- Adds an amount to a total; beyond the range of doubles there is no way back. -/
def addTo (total amount : Option Double) : Option Double := do Double.add? (← total) (← amount)

/-- The sum of what the members contribute, in their order. -/
def total (c : Contribution) (members : List Record) : Option Double :=
  members.foldl (fun sum r => addTo sum (c.of r)) (some Double.zero)

/-- The greatest whole number up to which doubles hold every whole number. -/
def exactLimit : Nat := Nat.pow 2 53

/-- A total as a value: an integer if it is a whole number within `exactLimit`, null beyond the
range of doubles. -/
def totalValue : Option Double → Json
  | none => .null
  | some d =>
    match d.toInt? with
    | some n => if n.natAbs ≤ exactLimit then .int n else .number (.float d)
    | none => .number (.float d)

/-- The record a group becomes. -/
def summary (g : Grouping) (group : Group) : Record :=
  -- an output named like the id would write over the key
  Fields.merge [(Record.idField, group.key)] <|
    g.outputs.map fun (name, c) => (name, totalValue (total c group.members))

def run (g : Grouping) (records : List Record) : List Record :=
  (g.groups records).map g.summary

end Grouping

end DocStore
