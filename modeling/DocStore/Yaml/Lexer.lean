import DocStore.Yaml.Scan
/-!
# From text to tokens

The lexer keeps the indentation of the blocks it is in, and turns a change of indentation into
tokens. A scalar, a collection in brackets or an alias may turn out to be the key of a mapping when
a colon follows on its line; its place is remembered until then, and the tokens of a key are
inserted there.
-/

namespace DocStore

namespace Yaml

/-- A place where a key may have begun. -/
structure PossibleKey where
  /-- A key has to begin there, or the text is wrong. -/
  required : Bool
  /-- How many tokens stand before it. -/
  place : Nat
  index : Nat
  line : Nat
  column : Nat

/-- What the lexer knows at a place in the text. -/
structure Lexer where
  cursor : Cursor
  tokens : Array Token
  /-- The column of the innermost block, and of those around it. -/
  indent : Int
  outer : List Int
  /-- Whether a key may begin here. -/
  keyAllowed : Bool
  /-- The possible key of each bracket, the innermost first, and of the block around them. -/
  keys : List (Option PossibleKey)

namespace Lexer

def start (text : List Char) : Lexer := ⟨⟨text, 0, 0, 0⟩, #[], -1, [], true, [none]⟩

/-- Whether the lexer is inside brackets. -/
def inFlow (l : Lexer) : Bool := l.keys.length > 1

def push (l : Lexer) (t : Token) : Lexer := { l with tokens := l.tokens.push t }

def moveTo (l : Lexer) (c : Cursor) : Lexer := { l with cursor := c }

def allowKey (l : Lexer) (allowed : Bool) : Lexer := { l with keyAllowed := allowed }

-- ---------------------------------------------------------------------------
-- Possible keys
-- ---------------------------------------------------------------------------

/-- Forgets the possible key of the innermost level; none may be required there. -/
def dropKey (l : Lexer) : Option Lexer :=
  match l.keys with
  | some k :: rest => if k.required then none else some { l with keys := none :: rest }
  | _ => some l

/-- Notes that a key may begin here. -/
def noteKey (l : Lexer) : Option Lexer :=
  if l.keyAllowed then do
    let l ← l.dropKey
    let c := l.cursor
    -- in a block, what starts a line at its column has to be a key
    let required := !l.inFlow && l.indent == (c.column : Int)
    some { l with keys := some ⟨required, l.tokens.size, c.index, c.line, c.column⟩ :: l.keys.tail }
  else some l

/-- Whether a key that began there can still end here: on the same line, within 1024 bytes. -/
def isFresh (l : Lexer) (k : PossibleKey) : Bool :=
  k.line == l.cursor.line && l.cursor.index ≤ k.index + 1024

/-- Forgets the possible keys that can no longer end here; none of them may be required. -/
def dropStaleKeys (l : Lexer) : Option Lexer :=
  let stale (k : Option PossibleKey) : Bool := k.any fun k => !l.isFresh k
  if l.keys.any fun k => stale k && k.any PossibleKey.required then none
  else some { l with keys := l.keys.map fun k => if stale k then none else k }

-- ---------------------------------------------------------------------------
-- Indentation
-- ---------------------------------------------------------------------------

/-- Opens a block at a column to the right of the innermost one. Its first token goes to the given
place, or to the end. -/
def openBlock (l : Lexer) (column : Nat) (place : Option Nat) (t : Token) : Lexer :=
  if !l.inFlow && l.indent < (column : Int) then
    { l with
      tokens := match place with
        | some i => l.tokens.insertIdxIfInBounds i t
        | none => l.tokens.push t
      indent := column
      outer := l.indent :: l.outer }
  else l

/-- Closes the blocks to the right of a column; `outer` are the columns around the innermost
one. -/
def closeBlocksTo (column : Int) (l : Lexer) : List Int → Lexer
  | [] => l
  | o :: outer =>
    if column < l.indent then
      closeBlocksTo column { l.push .blockEnd with indent := o, outer := outer } outer
    else l

/-- Closes the blocks to the right of a column; brackets close none. -/
def closeBlocks (l : Lexer) (column : Int) : Lexer :=
  if l.inFlow then l else closeBlocksTo column l l.outer

-- ---------------------------------------------------------------------------
-- Tokens
-- ---------------------------------------------------------------------------

/-- Passes over a byte order mark at the start of a line. It takes up a column. -/
def skipMark (c : Cursor) : Cursor :=
  if c.column == 0 && c.peek == some '\ufeff' then c.skip 1 else c

/-- Passes over blanks, comments and line breaks to the next token. Tabs count as blanks only where
no key can begin. -/
def skipToToken : Nat → Lexer → Lexer
  | 0, l => l
  | bound + 1, l =>
    let tabs := l.inFlow || !l.keyAllowed
    let c := (skipMark l.cursor).skipWhile fun ch => ch == ' ' || (tabs && ch == '\t')
    let c := if c.peek == some '#' then c.skipWhile fun ch => !isBreak ch else c
    if c.atBreak then
      let (_, c) := c.lineBreak
      skipToToken bound { l with cursor := c, keyAllowed := l.keyAllowed || !l.inFlow }
    else l.moveTo c

/-- A token of some characters that ends all blocks. -/
def marker (l : Lexer) (t : Token) (length : Nat) : Option Lexer := do
  let l ← (l.closeBlocks (-1)).dropKey
  some (((l.allowKey false).push t).moveTo (l.cursor.skip length))

def openBracket (l : Lexer) (t : Token) : Option Lexer := do
  let l ← l.noteKey
  let l := (l.push t).moveTo (l.cursor.skip 1)
  some { l with keys := none :: l.keys, keyAllowed := true }

def closeBracket (l : Lexer) (t : Token) : Option Lexer := do
  let l ← l.dropKey
  let keys := if l.inFlow then l.keys.tail else l.keys
  some (({ l with keys := keys, keyAllowed := false }.push t).moveTo (l.cursor.skip 1))

def comma (l : Lexer) : Option Lexer := do
  let l ← l.dropKey
  some (((l.allowKey true).push .flowEntry).moveTo (l.cursor.skip 1))

/-- An indicator that opens a block, if it stands to the right of the innermost one. -/
def blockIndicator (l : Lexer) (opening t : Token) (keyAfter : Bool) : Option Lexer := do
  if !l.inFlow && !l.keyAllowed then none
  else
    let l ← (l.openBlock l.cursor.column none opening).dropKey
    some (((l.allowKey keyAfter).push t).moveTo (l.cursor.skip 1))

/-- A colon: what began at the possible key is a key, or the key is empty. -/
def colon (l : Lexer) : Option Lexer :=
  match l.keys with
  | some k :: rest =>
    -- the key began earlier: its token goes in front of what was read since
    let l := { l with tokens := l.tokens.insertIdxIfInBounds k.place .key, keys := none :: rest }
    let l := l.openBlock k.column (some k.place) .blockMappingStart
    some (((l.allowKey false).push .value).moveTo (l.cursor.skip 1))
  | _ =>
    if !l.inFlow && !l.keyAllowed then none
    else
      let l := l.openBlock l.cursor.column none .blockMappingStart
      some (((l.allowKey (!l.inFlow)).push .value).moveTo (l.cursor.skip 1))

/-- A token that may be a key or part of one, with the place behind it. -/
def keyLike (l : Lexer) (read : Lexer → Option (Token × Cursor)) : Option Lexer := do
  let l ← l.noteKey
  let (t, c) ← read l
  some (((l.allowKey false).push t).moveTo c)

def anchorLike (l : Lexer) (t : String → Token) : Option Lexer :=
  l.keyLike fun l => (anchorName (l.cursor.skip 1)).map fun (name, c) => (t name, c)

def quoted (l : Lexer) (single : Bool) : Option Lexer :=
  l.keyLike fun l =>
    (quotedWords single (l.cursor.rest.length + 1) (l.cursor.skip 1)).map fun (text, c) =>
      (.scalar .quoted (String.ofList text), c)

def block (l : Lexer) (literal : Bool) : Option Lexer := do
  let l ← l.dropKey
  let (text, c) ← blockScalar literal l.indent (l.cursor.skip 1)
  let style := if literal then ScalarStyle.literal else ScalarStyle.folded
  some (((l.allowKey true).push (.scalar style (String.ofList text))).moveTo c)

def plain (l : Lexer) : Option Lexer := do
  let l ← l.noteKey
  let least := (l.indent + 1).toNat
  let (text, newLine, c) ←
    plainWords l.inFlow least (l.cursor.rest.length + 2) [] Gap.none l.cursor
  some (((l.allowKey newLine).push (.scalar .plain (String.ofList text))).moveTo c)

/-- Whether a plain scalar begins at this character. -/
def startsPlain (l : Lexer) (c : Char) : Bool :=
  let blankNext := (l.cursor.ahead 1).any isBlank
  (!isBlank c && !isIndicator c) || (c == '-' && !blankNext) ||
    (!l.inFlow && (c == '?' || c == ':') && isSolid (l.cursor.ahead 1))

/-- The token that begins at this character. -/
def tokenAt (l : Lexer) (c : Char) : Option Lexer :=
  let alone := !isSolid (l.cursor.ahead 1)
  if l.cursor.column == 0 && c == '%' then do
    let l ← (l.closeBlocks (-1)).dropKey
    let (t, c) ← readDirective l.cursor
    some (((l.allowKey false).push t).moveTo c)
  else if l.cursor.atMarker then l.marker (if c == '-' then .documentStart else .documentEnd) 3
  else if c == '[' then l.openBracket .flowSequenceStart
  else if c == '{' then l.openBracket .flowMappingStart
  else if c == ']' then l.closeBracket .flowSequenceEnd
  else if c == '}' then l.closeBracket .flowMappingEnd
  else if c == ',' then l.comma
  else if c == '-' && alone then l.blockIndicator .blockSequenceStart .blockEntry true
  else if c == '?' && (l.inFlow || alone) then
    l.blockIndicator .blockMappingStart .key (!l.inFlow)
  else if c == ':' && (l.inFlow || alone) then l.colon
  else if c == '*' then l.anchorLike .aliasOf
  else if c == '&' then l.anchorLike .anchor
  else if c == '!' then l.keyLike fun l => readTag l.inFlow l.cursor
  else if c == '|' && !l.inFlow then l.block true
  else if c == '>' && !l.inFlow then l.block false
  else if c == '\'' then l.quoted true
  else if c == '"' then l.quoted false
  else if l.startsPlain c then l.plain
  else none

/-- Reads tokens up to the end of the text. -/
def run : Nat → Lexer → Option (Array Token)
  | 0, _ => none
  | bound + 1, l => do
    let l := skipToToken (l.cursor.rest.length + 1) l
    let l ← l.dropStaleKeys
    let l := l.closeBlocks l.cursor.column
    match l.cursor.peek with
    | none => do
      let l ← (l.closeBlocks (-1)).dropKey
      some l.tokens
    | some c => do
      let l ← l.tokenAt c
      run bound l

end Lexer

/-- The tokens of a text. -/
def tokens? (text : String) : Option (List Token) :=
  let chars := text.toList
  if chars.all isAllowed then
    (Lexer.run (chars.length + 2) (Lexer.start chars)).map Array.toList
  else none

end Yaml

end DocStore
