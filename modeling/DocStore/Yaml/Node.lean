import DocStore.Fields
import DocStore.Yaml.Lexer
/-!
# From tokens to nodes

A YAML document is a tree of scalars, sequences and mappings. A node that is left out is an empty
plain scalar. An anchor names a node, and an alias stands for a node that is named before it.

A name is kept as a number: how many names there were when it was given. A name that is given again
gets a number anew, so that the next new name gets that number, too. An alias stands for the last
node in the document whose anchor has the number.
-/

namespace DocStore

namespace Yaml

/-- What stands before a node: the number of its anchor, and its tag. -/
structure Properties where
  anchor : Option Nat
  tag : Option String
deriving DecidableEq

/-- A node of a document. -/
inductive Node where
  | scalar (props : Properties) (style : ScalarStyle) (text : String)
  | sequence (props : Properties) (items : List Node)
  | mapping (props : Properties) (entries : List (Node × Node))
  /-- Stands for the node whose anchor has this number. -/
  | aliasOf (anchor : Nat)

/-- Nothing before a node. -/
def Properties.none : Properties := ⟨.none, .none⟩

/-- Whether there is nothing before a node. -/
def Properties.isNone (p : Properties) : Bool := p.anchor.isNone && p.tag.isNone

namespace Node

/-- A node that is left out. -/
def empty : Node := scalar .none .plain ""

instance : Inhabited Node := ⟨empty⟩

end Node

/-- What the tokens before a node lay down: the meanings of tag handles, and the numbers of
names. -/
structure Context where
  handles : List (String × String)
  names : Fields Nat

namespace Context

/-- The handles every document has. -/
def standardHandles : List (String × String) := [("!", "!"), ("!!", "tag:yaml.org,2002:")]

/-- The full text of a tag. -/
def resolve? (ctx : Context) (handle suffix : String) : Option String :=
  if handle = "" then some suffix
  else (List.lookup handle ctx.handles).map (· ++ suffix)

/-- The context in which a name is given once more. -/
def name (ctx : Context) (anchor : String) : Context :=
  { ctx with names := Fields.set ctx.names anchor ctx.names.length }

/-- The number of a name that has been given. -/
def number? (ctx : Context) (anchor : String) : Option Nat := Fields.get? ctx.names anchor

/-- The properties that a name and a tag make, and the context behind them. -/
def properties (ctx : Context) (anchor : Option String) (tag : Option String) :
    Properties × Context :=
  match anchor with
  | some a =>
    let ctx := ctx.name a
    (⟨ctx.number? a, tag⟩, ctx)
  | none => (⟨none, tag⟩, ctx)

end Context

/-- Reads an anchor and a tag, in either order, at most one of each. -/
def properties (ctx : Context) : List Token → Option (Properties × Context × List Token)
  | .anchor a :: .tag h s :: rest | .tag h s :: .anchor a :: rest =>
    (ctx.resolve? h s).map fun t =>
      let (props, ctx) := ctx.properties (some a) (some t)
      (props, ctx, rest)
  | .anchor a :: rest =>
    let (props, ctx) := ctx.properties (some a) none
    some (props, ctx, rest)
  | .tag h s :: rest =>
    (ctx.resolve? h s).map fun t =>
      let (props, ctx) := ctx.properties none (some t)
      (props, ctx, rest)
  | rest => some (.none, ctx, rest)

/-- A result of reading nodes: what was read, the context after it, and the tokens that follow. -/
abbrev NodeResult (α : Type) := Option (α × Context × List Token)

mutual

/-- Reads a node. `block` says whether block collections may stand here, and `indentless` whether a
sequence may stand without indentation of its own. The first argument bounds the nesting and the
length of what is read. -/
def readNode (block indentless : Bool) : Nat → Context → List Token → NodeResult Node
  | 0, _, _ => none
  | _ + 1, ctx, .aliasOf a :: rest => (ctx.number? a).map fun number => (.aliasOf number, ctx, rest)
  | bound + 1, ctx, tokens =>
    match properties ctx tokens with
    | none => none
    | some (props, ctx, tokens) =>
      let items (r : NodeResult (List Node)) : NodeResult Node :=
        r.map fun (ns, ctx, rest) => (.sequence props ns, ctx, rest)
      let entries (r : NodeResult (List (Node × Node))) : NodeResult Node :=
        r.map fun (es, ctx, rest) => (.mapping props es, ctx, rest)
      let leftOut : NodeResult Node :=
        if props.isNone then none else some (.scalar props .plain "", ctx, tokens)
      match tokens with
      | .scalar style text :: rest => some (.scalar props style text, ctx, rest)
      | .flowSequenceStart :: rest => items (readFlowItems bound true ctx rest)
      | .flowMappingStart :: rest => entries (readFlowEntries bound true ctx rest)
      | .blockSequenceStart :: rest => if block then items (readBlockItems bound ctx rest) else none
      | .blockMappingStart :: rest =>
        if block then entries (readBlockEntries bound ctx rest) else none
      | .blockEntry :: _ =>
        if indentless then items (readIndentlessItems bound ctx tokens) else leftOut
      | _ => leftOut

/-- The items of a block sequence, up to its end. -/
def readBlockItems : Nat → Context → List Token → NodeResult (List Node)
  | 0, _, _ => none
  | _ + 1, ctx, .blockEnd :: rest => some ([], ctx, rest)
  | bound + 1, ctx, .blockEntry :: rest =>
    let item : NodeResult Node :=
      match rest with
      | .blockEntry :: _ | .blockEnd :: _ => some (Node.empty, ctx, rest)
      | _ => readNode true false bound ctx rest
    match item with
    | none => none
    | some (n, ctx, rest) =>
      (readBlockItems bound ctx rest).map fun (ns, ctx, rest) => (n :: ns, ctx, rest)
  | _ + 1, _, _ => none

/-- The items of a sequence that stands at the column of the key before it. -/
def readIndentlessItems : Nat → Context → List Token → NodeResult (List Node)
  | 0, _, _ => none
  | bound + 1, ctx, .blockEntry :: rest =>
    let item : NodeResult Node :=
      match rest with
      | .blockEntry :: _ | .key :: _ | .value :: _ | .blockEnd :: _ => some (Node.empty, ctx, rest)
      | _ => readNode true false bound ctx rest
    match item with
    | none => none
    | some (n, ctx, rest) =>
      (readIndentlessItems bound ctx rest).map fun (ns, ctx, rest) => (n :: ns, ctx, rest)
  | _ + 1, ctx, tokens => some ([], ctx, tokens)

/-- The key or the value of an entry of a block mapping, after its indicator. -/
def readBlockPart : Nat → Context → List Token → NodeResult Node
  | 0, _, _ => none
  | bound + 1, ctx, tokens =>
    match tokens with
    | .key :: _ | .value :: _ | .blockEnd :: _ => some (Node.empty, ctx, tokens)
    | _ => readNode true true bound ctx tokens

/-- The entries of a block mapping, up to its end. Each begins with a key, which may be left out
after a question mark only. -/
def readBlockEntries : Nat → Context → List Token → NodeResult (List (Node × Node))
  | 0, _, _ => none
  | _ + 1, ctx, .blockEnd :: rest => some ([], ctx, rest)
  | bound + 1, ctx, .key :: rest =>
    match readBlockPart bound ctx rest with
    | none => none
    | some (k, ctx, rest) =>
      let value : NodeResult Node :=
        match rest with
        | .value :: rest => readBlockPart bound ctx rest
        | rest => some (Node.empty, ctx, rest)
      match value with
      | none => none
      | some (v, ctx, rest) =>
        (readBlockEntries bound ctx rest).map fun (es, ctx, rest) => ((k, v) :: es, ctx, rest)
  | _ + 1, _, _ => none

/-- The value of an entry inside brackets, up to what ends it. -/
def readFlowValue (closing : Token) : Nat → Context → List Token → NodeResult Node
  | 0, _, _ => none
  | bound + 1, ctx, tokens =>
    match tokens with
    | .value :: rest =>
      match rest with
      | [] => none
      | t :: _ =>
        if t = .flowEntry ∨ t = closing then some (Node.empty, ctx, rest)
        else readNode false false bound ctx rest
    | _ => some (Node.empty, ctx, tokens)

/-- The items of a sequence in brackets, after the opening one or after an item. An item that begins
with a question mark is a mapping of one entry; if its key is left out, the indicator after the
question mark is passed over. -/
def readFlowItems : Nat → Bool → Context → List Token → NodeResult (List Node)
  | 0, _, _, _ => none
  | _ + 1, _, ctx, .flowSequenceEnd :: rest => some ([], ctx, rest)
  | bound + 1, first, ctx, tokens =>
    let tokens? : Option (List Token) :=
      if first then some tokens
      else
        match tokens with
        | .flowEntry :: rest => some rest
        | _ => none
    match tokens? with
    | none => none
    | some (.flowSequenceEnd :: rest) => some ([], ctx, rest)
    | some (.key :: rest) =>
      let key : NodeResult Node :=
        match rest with
        | .value :: rest | .flowEntry :: rest | .flowSequenceEnd :: rest =>
          some (Node.empty, ctx, rest)
        | _ => readNode false false bound ctx rest
      match key with
      | none => none
      | some (k, ctx, rest) =>
        match readFlowValue .flowSequenceEnd bound ctx rest with
        | none => none
        | some (v, ctx, rest) =>
          (readFlowItems bound false ctx rest).map fun (ns, ctx, rest) =>
            (.mapping .none [(k, v)] :: ns, ctx, rest)
    | some tokens =>
      match readNode false false bound ctx tokens with
      | none => none
      | some (n, ctx, rest) =>
        (readFlowItems bound false ctx rest).map fun (ns, ctx, rest) => (n :: ns, ctx, rest)

/-- The entries of a mapping in braces, after the opening one or after an entry. -/
def readFlowEntries : Nat → Bool → Context → List Token → NodeResult (List (Node × Node))
  | 0, _, _, _ => none
  | _ + 1, _, ctx, .flowMappingEnd :: rest => some ([], ctx, rest)
  | bound + 1, first, ctx, tokens =>
    let tokens? : Option (List Token) :=
      if first then some tokens
      else
        match tokens with
        | .flowEntry :: rest => some rest
        | _ => none
    match tokens? with
    | none => none
    | some (.flowMappingEnd :: rest) => some ([], ctx, rest)
    | some (.key :: rest) =>
      let key : NodeResult Node :=
        match rest with
        | .value :: _ | .flowEntry :: _ | .flowMappingEnd :: _ => some (Node.empty, ctx, rest)
        | _ => readNode false false bound ctx rest
      match key with
      | none => none
      | some (k, ctx, rest) =>
        match readFlowValue .flowMappingEnd bound ctx rest with
        | none => none
        | some (v, ctx, rest) =>
          (readFlowEntries bound false ctx rest).map fun (es, ctx, rest) =>
            ((k, v) :: es, ctx, rest)
    | some tokens =>
      match readNode false false bound ctx tokens with
      | none => none
      | some (k, ctx, rest) =>
        (readFlowEntries bound false ctx rest).map fun (es, ctx, rest) =>
          ((k, Node.empty) :: es, ctx, rest)

end

end Yaml

end DocStore
