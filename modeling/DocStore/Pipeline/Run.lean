import DocStore.Pipeline.Order
import DocStore.Pipeline.Sample
import DocStore.Pipeline.Stage
/-!
# Running a pipeline

Each stage turns a list of records into the next one. A run also answers with the warnings it gives
and the source of random words as it leaves it.
-/

namespace DocStore

/-- The fields of a projection that the record has. -/
def Record.project (r : Record) (fields : List (String × String)) : Record :=
  Fields.ofPairs <| fields.filterMap fun (output, path) =>
    (r.lookup path).map fun v => (output, v)

/-- Whether one record may stand before another when sorted by a field. -/
def Record.mayPrecede (field : String) (descending : Bool) (a b : Record) : Bool :=
  let ord := Json.order (a.lookup field) (b.lookup field)
  -- records that tie may stand either way, so a stable sort leaves them as they are
  if descending then ord != .lt else ord != .gt

namespace Stage

/-- The records after a stage, and the source after its draws. -/
def apply (stage : Stage) (records : List Record) (source : WordSource) :
    List Record × WordSource :=
  match stage with
  | keep query => (records.filter fun r => Record.matchesQuery r query, source)
  | group grouping => (grouping.run records, source)
  | project fields => (records.map fun r => Record.project r fields, source)
  | sort field descending => (records.mergeSort (Record.mayPrecede field descending), source)
  | skip n => (records.drop n, source)
  | limit n => (records.take n, source)
  | sample n => if records.isEmpty then ([], source) else source.draw records.toArray n
  | unknown _ => (records, source)

/-- The warning a stage gives. -/
def warning? : Stage → Option String
  | unknown name => some ("Ignoring unknown pipeline stage '" ++ name ++ "'")
  | _ => none

/-- The records after all stages, and the source after their draws. -/
def applyAll (stages : List Stage) (records : List Record) (source : WordSource) :
    List Record × WordSource :=
  stages.foldl (fun (records, source) stage => stage.apply records source) (records, source)

/-- The warnings of a run, in the order of the stages. -/
def warnings (stages : List Stage) : List String := stages.filterMap warning?

end Stage

end DocStore
