import DocStore.Schema.Codec
import DocStore.Yaml.Document
import DocStore.Yaml.Scalar
/-!
# Schema files

A schema file is a YAML document with an entry `collections`: a mapping from names to schemas in
the form of `Schema.decode`. An empty file declares nothing, and a mapping whose value is left out
is an empty one. Of collections with one name the last counts; the entries `collections`,
`timestamps` and `fields` may not be repeated.
-/

namespace DocStore

namespace Yaml

namespace Node

/-- The tags of the values that YAML knows. -/
def nullTag : String := "tag:yaml.org,2002:null"
def boolTag : String := "tag:yaml.org,2002:bool"
def intTag : String := "tag:yaml.org,2002:int"
def floatTag : String := "tag:yaml.org,2002:float"

/-- Whether a tag is a private one; there are no values of private types. -/
def isPrivate (tag : Option String) : Bool := tag.any fun t => t.toList.head? == some '!'

/-- The value of a plain scalar without tag. -/
def plainJson? (text : String) : Option Json :=
  match Meaning.of text with
  | .null | .notFinite => some .null
  | .bool b => some (.bool b)
  | .int n => some (.int n)
  | .wideInt => none
  | .float d => some (.number (.float d))
  | .text => some (.string text)

/-- The value of a scalar. -/
def scalarJson? (tag : Option String) (style : ScalarStyle) (text : String) : Option Json :=
  match tag with
  | none => if style = .plain then plainJson? text else some (.string text)
  | some tag =>
    if tag = boolTag then (Meaning.boolWord? text).map .bool
    else if tag = intTag then
      match Meaning.ofNumber text with
      | .int n => some (.int n)
      | _ => none
    else if tag = floatTag then
      if Meaning.isNotFiniteWord text then some .null
      else (Meaning.decimal? text.toList).map fun d => .number (.float d)
    else if tag = nullTag then if Meaning.isNullWord text then some .null else none
    else some (.string text)

/-- The truth value of a scalar. It has to be plain, or a tagged block that keeps its lines. -/
def scalarBool? (tag : Option String) (style : ScalarStyle) (text : String) : Option Bool :=
  if style = .plain || (style = .literal && tag == some boolTag) then Meaning.boolWord? text
  else none

end Node

namespace Document

/-- The name a node is as a key of a mapping. -/
def key (d : Document) (n : Node) : Reading String := do
  match ← d.target n with
  | .scalar _ _ text => pure text
  | _ => failure

/-- The value of a scalar; there are no values of private types. -/
def scalar (props : Properties) (style : ScalarStyle) (text : String) : Reading Json :=
  if Node.isPrivate props.tag then failure
  else
    match Node.scalarJson? props.tag style text with
    | some v => pure v
    | none => failure

/-- The value a node stands for, with at most this many collections inside one another. -/
def value (d : Document) : Nat → Node → Reading Json
  | 0, n => do
    match ← d.target n with
    | .scalar props style text => scalar props style text
    | _ => failure
  | depth + 1, n => do
    match ← d.target n with
    | .scalar props style text => scalar props style text
    | .sequence props items =>
      if Node.isPrivate props.tag then failure
      else do
        let values ← items.mapM (value d depth)
        pure (.array values)
    | .mapping props entries =>
      if Node.isPrivate props.tag then failure
      else do
        let members ← entries.mapM fun e => do
          let name ← d.key e.1
          let v ← value d depth e.2
          pure (name, v)
        pure (.object (Fields.ofPairs members))
    | .aliasOf _ => failure

/-- The entries of a mapping, by name; a mapping that is left out has none. -/
def entries (d : Document) (n : Node) : Reading (List (String × Node)) := do
  match ← d.target n with
  | .mapping _ es => es.mapM fun e => do
    let name ← d.key e.1
    pure (name, e.2)
  | .scalar _ .plain "" => pure []
  | _ => failure

/-- The entries with these names. None of the names may be repeated; other names do not count. -/
def described (d : Document) (names : List String) (n : Node) : Reading (List (String × Node)) := do
  let known := (← d.entries n).filter fun e => names.contains e.1
  if (known.map Prod.fst).Nodup then pure known else failure

/-- The truth value a node stands for. -/
def bool (d : Document) (n : Node) : Reading Bool := do
  match ← d.target n with
  | .scalar props style text =>
    match Node.scalarBool? props.tag style text with
    | some b => pure b
    | none => failure
  | _ => failure

end Document

end Yaml

namespace SchemaFile

/-- The greatest depth of the description of a field, four mappings being around it. -/
def fieldDepth : Nat := 124

/-- The description of the fields of a schema. -/
def fields (d : Yaml.Document) (n : Yaml.Node) : Yaml.Reading Json := do
  let pairs ← (← d.entries n).mapM fun e => do
    let v ← d.value fieldDepth e.2
    pure (e.1, v)
  pure (.object (Fields.ofPairs pairs))

/-- The schema that a node describes. -/
def schema (d : Yaml.Document) (n : Yaml.Node) : Yaml.Reading Schema := do
  let es ← d.described ["timestamps", "fields"] n
  let timestamps ← match List.lookup "timestamps" es with
    | some n => d.bool n
    | none => pure false
  let fields ← match List.lookup "fields" es with
    | some n => fields d n
    | none => pure (.object [])
  match Schema.decode (.object [("timestamps", .bool timestamps), ("fields", fields)]) with
  | .ok schema => pure schema
  | .error _ => failure

/-- The schemas of collections by name, in the order of the names. -/
def collections (d : Yaml.Document) (n : Yaml.Node) : Yaml.Reading (Fields Schema) := do
  let schemas ← (← d.entries n).mapM fun e => do
    let s ← schema d e.2
    pure (e.1, s)
  pure ((Fields.ofPairs schemas).mergeSort fun a b => a.1 ≤ b.1)

/-- The schemas that a document declares. -/
def declared (d : Yaml.Document) : Yaml.Reading (Fields Schema) := do
  let es ← d.described ["collections"] d.root
  match List.lookup "collections" es with
  | some n => collections d n
  | none => pure []

/-- The schemas that the text of a schema file declares. -/
def read? (text : String) : Option (Fields Schema) := do
  let d ← Yaml.readDocument? text
  d.read? (declared d)

end SchemaFile

end DocStore
