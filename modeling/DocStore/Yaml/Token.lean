/-!
# Tokens of YAML

The pieces a YAML text is cut into. Indentation is turned into tokens as well: a block collection
starts with a token of its own and ends with `blockEnd`.
-/

namespace DocStore

namespace Yaml

/-- How a scalar is written. -/
inductive ScalarStyle where
  | plain
  | quoted
  /-- A block that keeps its line breaks. -/
  | literal
  /-- A block that joins its lines. -/
  | folded
deriving DecidableEq

inductive Token where
  /-- A directive on the version or on tags: the handle and what it stands for. -/
  | versionDirective
  | tagDirective (handle meaning : String)
  | documentStart
  | documentEnd
  | blockSequenceStart
  | blockMappingStart
  | blockEnd
  | flowSequenceStart
  | flowSequenceEnd
  | flowMappingStart
  | flowMappingEnd
  | blockEntry
  | flowEntry
  | key
  | value
  | aliasOf (name : String)
  | anchor (name : String)
  | tag (handle suffix : String)
  | scalar (style : ScalarStyle) (text : String)
deriving DecidableEq

-- ---------------------------------------------------------------------------
-- Classes of characters
-- ---------------------------------------------------------------------------

def isBlank (c : Char) : Bool := c == ' ' || c == '\t'

/-- Characters that end a line. -/
def isBreak (c : Char) : Bool :=
  c == '\n' || c == '\r' || c == '\x85' || c == '\u2028' || c == '\u2029'

/-- Characters of the names of anchors and directives. -/
def isWordChar (c : Char) : Bool := c.isAlphanum || c == '_' || c == '-'

/-- Whether a character, if there is one, is no blank and no line break. -/
def isSolid (c : Option Char) : Bool :=
  match c with
  | none => false
  | some c => !isBlank c && !isBreak c

/-- Characters a YAML text may hold. -/
def isAllowed (c : Char) : Bool :=
  let n := c.toNat
  n == 0x09 || n == 0x0a || n == 0x0d || (0x20 ≤ n && n ≤ 0x7e) || n == 0x85 ||
    (0xa0 ≤ n && n ≤ 0xd7ff) || (0xe000 ≤ n && n ≤ 0xfffd) || 0x10000 ≤ n

/-- The characters that start no plain scalar by themselves. -/
def isIndicator (c : Char) : Bool := "-?:,[]\x7b\x7d#&*!|>'\"%@\x60".toList.contains c

-- ---------------------------------------------------------------------------
-- Places in a text
-- ---------------------------------------------------------------------------

/-- What is left of a text, and where it starts: how many bytes stand before it, and its line and
column. -/
structure Cursor where
  rest : List Char
  index : Nat
  line : Nat
  column : Nat

namespace Cursor

def peek (c : Cursor) : Option Char := c.rest.head?

/-- The character that many places further on. -/
def ahead (c : Cursor) (n : Nat) : Option Char := c.rest[n]?

/-- How many bytes characters take. -/
def byteLength (s : List Char) : Nat := s.foldl (fun n c => n + c.utf8Size) 0

/-- Passes over characters of one line. -/
def skip (c : Cursor) (n : Nat) : Cursor :=
  { c with
    rest := c.rest.drop n
    index := c.index + byteLength (c.rest.take n)
    column := c.column + n }

/-- Passes over the characters of a class, on one line. -/
def skipWhile (c : Cursor) (p : Char → Bool) : Cursor := c.skip (c.rest.takeWhile p).length

/-- The characters of a class and the place behind them, on one line. -/
def span (c : Cursor) (p : Char → Bool) : List Char × Cursor :=
  let taken := c.rest.takeWhile p
  (taken, c.skip taken.length)

/-- Passes over a line break; the answer is how the break counts in a scalar. -/
def lineBreak (c : Cursor) : List Char × Cursor :=
  match c.rest with
  | '\r' :: '\n' :: rest => (['\n'], ⟨rest, c.index + 2, c.line + 1, 0⟩)
  | b :: rest =>
    let counts := if b == '\u2028' || b == '\u2029' then b else '\n'
    ([counts], ⟨rest, c.index + b.utf8Size, c.line + 1, 0⟩)
  | [] => ([], c)

/-- Whether a line break comes next. -/
def atBreak (c : Cursor) : Bool := c.peek.any isBreak

/-- Whether a blank comes next. -/
def atBlank (c : Cursor) : Bool := c.peek.any isBlank

/-- Whether a line break or the end of the text comes next. -/
def atLineEnd (c : Cursor) : Bool := c.peek.all isBreak

/-- Passes over blanks and a comment up to the end of the line. -/
def skipComment (c : Cursor) : Cursor :=
  let c := c.skipWhile isBlank
  if c.peek == some '#' then c.skipWhile fun ch => !isBreak ch else c

/-- Whether three points or dashes stand alone at the start of the line. -/
def atMarker (c : Cursor) : Bool :=
  c.column == 0 && !isSolid (c.ahead 3) &&
    (c.rest.take 3 == ['-', '-', '-'] || c.rest.take 3 == ['.', '.', '.'])

end Cursor

end Yaml

end DocStore
