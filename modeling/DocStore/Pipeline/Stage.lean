import DocStore.Error
import DocStore.Pipeline.Group
/-!
# Stages of a pipeline and their description

A pipeline is described by a list of objects with one key each, the name of the stage. Names that
are not known stand for a stage that does nothing.
-/

namespace DocStore

/-- One step of a pipeline. -/
inductive Stage where
  /-- Keeps the records that match. -/
  | keep (query : Record)
  | group (grouping : Grouping)
  /-- Takes each output field from a path. -/
  | project (fields : List (String × String))
  | sort (field : String) (descending : Bool)
  | skip (count : Nat)
  | limit (count : Nat)
  /-- Draws records at random, with replacement. -/
  | sample (count : Nat)
  /-- Changes nothing. -/
  | unknown (name : String)

namespace Stage

/-- The path after a leading dollar sign. -/
def afterDollar? (s : String) : Option String :=
  match s.toList with
  | '$' :: rest => some (String.ofList rest)
  | _ => none

/-- The only member of an object that has just one. -/
def onlyMember? : Json → Option (String × Json)
  | .object [m] => some m
  | _ => none

def objectOf (stage : String) (params : Json) : Except StageFault (Fields Json) :=
  match params.asObject? with
  | some members => .ok members
  | none => .error (.notObject stage params)

def countOf (stage : String) (params : Json) : Except StageFault Nat :=
  match params.asNat? with
  | some n => .ok n
  | none => .error (.notCount stage params)

-- ---------------------------------------------------------------------------
-- Grouping
-- ---------------------------------------------------------------------------

/-- The key that the id of a grouping describes: nothing or null stands for the whole record, a
text after a dollar sign for a path, and everything else for itself. -/
def groupKeyOf : Option Json → GroupKey
  | none | some .null => .record
  | some (.string s) =>
    match afterDollar? s with
    | some path => .field path
    | none => .constant (.string s)
  | some v => .constant v

/-- The operand of a sum: an object whose only member is `$sum`. -/
def sumOperand? (v : Json) : Option Json :=
  match onlyMember? v with
  | some (name, operand) => if name = "$sum" then some operand else none
  | none => none

/-- What an operand adds up. -/
def contributionOf? : Json → Option Contribution
  | .string s => (afterDollar? s).map .field
  | .number n => some (.constant n.toDouble)
  | _ => none

def outputOf (name : String) (operator : Json) : Except StageFault (String × Contribution) :=
  match sumOperand? operator with
  | none => .error (.notSum name operator)
  | some operand =>
    match contributionOf? operand with
    | none => .error (.sumOperand name operand)
    | some c => .ok (name, c)

def groupingOf (params : Fields Json) : Except StageFault Grouping := do
  -- the id is no output; the others keep their order
  let outputs ← (params.filter fun m => m.1 != Record.idField).mapM fun m => outputOf m.1 m.2
  .ok ⟨groupKeyOf (Fields.get? params Record.idField), outputs⟩

-- ---------------------------------------------------------------------------
-- Projection and sorting
-- ---------------------------------------------------------------------------

/-- The path an output field is taken from; the answer `none` leaves the field out. -/
def sourceOf (output : String) (v : Json) : Except StageFault (Option (String × String)) :=
  match v with
  | .string s => .ok (some (output, (afterDollar? s).getD s))
  | .bool true => .ok (some (output, output))
  | .bool false => .ok none
  | .number n =>
    if n.sameValue (.int 1) then .ok (some (output, output))
    else if n.sameValue (.int 0) then .ok none
    else .error (.projectSource output v)
  | _ => .error (.projectSource output v)

def projectionOf (params : Fields Json) : Except StageFault (List (String × String)) := do
  let sources ← params.mapM fun m => sourceOf m.1 m.2
  .ok (sources.filterMap id)

def sortOf (params : Fields Json) : Except StageFault Stage :=
  match params with
  | [(field, direction)] =>
    match direction.asNumber? with
    | some n =>
      if n.sameValue (.int 1) then .ok (sort field false)
      else if n.sameValue (.int (-1)) then .ok (sort field true)
      else .error (.sortDirection field direction)
    | none => .error (.sortDirection field direction)
  | _ => .error (.sortFields params.length)

-- ---------------------------------------------------------------------------
-- Stages
-- ---------------------------------------------------------------------------

/-- The stage of this name with these parameters. -/
def named (name : String) (params : Json) : Except StageFault Stage :=
  match name with
  | "$match" => do .ok (keep (← objectOf name params))
  | "$group" => do .ok (group (← groupingOf (← objectOf name params)))
  | "$project" => do .ok (project (← projectionOf (← objectOf name params)))
  | "$sort" => do sortOf (← objectOf name params)
  | "$skip" => do .ok (skip (← countOf name params))
  | "$limit" => do .ok (limit (← countOf name params))
  | "$sample" => do .ok (sample (← countOf name params))
  -- not refused, but warned of when it runs
  | _ => .ok (unknown name)

/-- The stage a description stands for. -/
def decode (description : Json) : Except StageFault Stage :=
  match onlyMember? description with
  | some (name, params) => named name params
  | none => .error (.notOneKey description)

/-- The stages a description of a whole pipeline stands for. -/
def decodeAll (description : Json) : Except StageFault (List Stage) :=
  match description.asArray? with
  | some items => items.mapM decode
  | none => .error .notArray

end Stage

end DocStore
