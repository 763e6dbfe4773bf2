import DocStore.Json.Printer
import DocStore.Yaml.Scalar
import DocStore.Yaml.Token
/-!
# Writing YAML

A value is written in block style, one line per item or member: a sequence stands at the column of
the key before it, everything else two columns further on. Empty containers are in brackets. A text
is written plain where that is safe and is read back as a text, and otherwise in the first style
that can hold it.

* `Style.of`: the style of a text.
* `lines`: the lines of a value.
-/

namespace DocStore

namespace Yaml

-- ---------------------------------------------------------------------------
-- What a text allows
-- ---------------------------------------------------------------------------

/-- Characters that stand for themselves. -/
def isPrintable (c : Char) : Bool :=
  isAllowed c && c != '\t' && c != '\r' && c != '\x85' && c != '\ufeff'

/-- Characters that may separate words: blanks, line breaks and the null character. -/
def isSeparator (c : Char) : Bool := isBlank c || isBreak c || c == '\x00'

/-- Whether a character of one class comes right before one of another. -/
def hasPair (p q : Char → Bool) (s : List Char) : Bool :=
  (s.zip s.tail).any fun (a, b) => p a && q b

/-- Whether a text begins with an indicator that no plain scalar begins with. -/
def startsWithIndicator (s : List Char) : Bool :=
  match s with
  | [] => false
  | c :: rest =>
    "#,[]\x7b\x7d&*!|>'\"%@\x60".toList.contains c ||
      ((c == '?' || c == '-') && rest.head?.all isSeparator)

/-- Whether a text begins as the mark of a document does. -/
def startsWithMarker (s : List Char) : Bool :=
  s.take 3 == ['-', '-', '-'] || s.take 3 == ['.', '.', '.']

/-- Whether a part of a text would be taken for the end of a key, or for a comment. -/
def hasInnerIndicator (s : List Char) : Bool :=
  hasPair (· == ':') isSeparator s || s.getLast? == some ':' || hasPair isSeparator (· == '#') s

/-- Whether a text begins or ends with a space. -/
def hasOuterSpace (s : List Char) : Bool := s.head? == some ' ' || s.getLast? == some ' '

/-- Whether a text can stand without quotes, whatever it is read back as. -/
def allowsPlain (s : List Char) : Bool :=
  s.all (fun c => isPrintable c && !isBreak c) && !startsWithMarker s && !startsWithIndicator s &&
    !hasInnerIndicator s && !hasOuterSpace s

/-- Whether a text can stand between single quotes: lines end and begin there without spaces. -/
def allowsSingleQuotes (s : List Char) : Bool :=
  s.all isPrintable && !hasPair isBreak (· == ' ') s && !hasPair (· == ' ') isBreak s

/-- Whether a text can stand line by line: no line ends in a space. -/
def allowsLiteral (s : List Char) : Bool :=
  s.all isPrintable && !hasPair (· == ' ') isBreak s && s.getLast? != some ' '

/-- Whether a text without quotes is read back as itself, here and by readers that take a row of
digits for a number even if it starts with zero. -/
def readsAsText (s : String) : Bool :=
  !Meaning.isZeroLed s.toList &&
    match Meaning.of s with
    | .text => true
    | _ => false

/-- How a text is written. -/
inductive Style where
  | plain | singleQuoted | doubleQuoted | literal
deriving DecidableEq

/-- The style of a text: one of several lines is literal, one that would not be read back as a
text is quoted, and double quotes hold what no other style can. -/
def Style.of (s : String) : Style :=
  if s.toList.contains '\n' then
    if allowsLiteral s.toList then .literal else .doubleQuoted
  else if readsAsText s && allowsPlain s.toList then .plain
  else if allowsSingleQuotes s.toList then .singleQuoted
  else .doubleQuoted

-- ---------------------------------------------------------------------------
-- Lines
-- ---------------------------------------------------------------------------

/-- A line with the break that ends it. -/
abbrev Line := List Char

/-- Cuts a text behind each break. -/
def splitLines : List Char → List Line
  | [] => []
  | c :: rest =>
    if isBreak c then [c] :: splitLines rest
    else
      match splitLines rest with
      | [] => [[c]]
      | line :: others => (c :: line) :: others

/-- Moves a line two columns to the right, unless it is empty. -/
def indentLine (line : Line) : Line := if line.all isBreak then line else ' ' :: ' ' :: line

/-- Puts a text before the first line and moves the others to the right. -/
def hang (first : List Char) : List Line → List Line
  | [] => []
  | line :: rest => (first ++ line) :: rest.map indentLine

-- ---------------------------------------------------------------------------
-- Texts
-- ---------------------------------------------------------------------------

/-- A number in base 16 with this many digits, in capitals. -/
def hexDigits : Nat → Nat → List Char
  | 0, _ => []
  | width + 1, n => hexDigits width (n / 16) ++ [(Json.hexDigit (n % 16)).toUpper]

/-- A character between double quotes. -/
def escaped (c : Char) : List Char :=
  if c == '"' then ['\\', '"']
  else if c == '\\' then ['\\', '\\']
  else if isPrintable c && !isBreak c then [c]
  else
    match c with
    | '\x00' => ['\\', '0']
    | '\x07' => ['\\', 'a']
    | '\x08' => ['\\', 'b']
    | '\t' => ['\\', 't']
    | '\n' => ['\\', 'n']
    | '\x0b' => ['\\', 'v']
    | '\x0c' => ['\\', 'f']
    | '\r' => ['\\', 'r']
    | '\x1b' => ['\\', 'e']
    | '\x85' => ['\\', 'N']
    | '\u2028' => ['\\', 'L']
    | '\u2029' => ['\\', 'P']
    | c =>
      if c.toNat ≤ 0xff then '\\' :: 'x' :: hexDigits 2 c.toNat
      else if c.toNat ≤ 0xffff then '\\' :: 'u' :: hexDigits 4 c.toNat
      else '\\' :: 'U' :: hexDigits 8 c.toNat

/-- The mark before the lines of a literal text. It says that the text begins with blanks of its
own, and how many breaks end it. -/
def literalMark (s : List Char) : List Char :=
  let start := if s.head?.any fun c => c == ' ' || isBreak c then ['2'] else []
  let ending :=
    match s.reverse with
    | [] => ['-']
    | [c] => if isBreak c then ['+'] else ['-']
    | c :: d :: _ => if !isBreak c then ['-'] else if isBreak d then ['+'] else []
  '|' :: start ++ ending

/-- A text that ends its line. -/
def endLine (s : List Char) : List Char := if s.getLast?.any isBreak then s else s ++ ['\n']

/-- A text as a scalar, without the end of its last line. -/
def scalarText (s : String) : List Char :=
  match Style.of s with
  | .plain => s.toList
  | .singleQuoted => '\'' :: s.toList.flatMap (fun c => if c == '\'' then [c, c] else [c]) ++ ['\'']
  | .doubleQuoted => '"' :: s.toList.flatMap escaped ++ ['"']
  | .literal => literalMark s.toList ++ '\n' :: s.toList

/-- The lines of a text. Those after the first are not yet indented. -/
def textLines (s : String) : List Line := splitLines (endLine (scalarText s))

-- ---------------------------------------------------------------------------
-- Values
-- ---------------------------------------------------------------------------

/-- A float is written as in JSON, but without sign before an exponent that is not negative. -/
def floatStyle : DecimalStyle := { Json.floatStyle with plusSign := "" }

/-- The text of a number. -/
def numberText : Number → String
  | .int n => toString n
  | .float d => floatStyle.layout d.negative d.shortest

/-- Whether a key can stand before its colon on one line: a short text without line breaks. -/
def isSimpleKey (key : String) : Bool := key.utf8ByteSize ≤ 128 && !key.toList.any isBreak

/-- A key of one line, with its colon. -/
def keyText (key : String) : List Char := scalarText key ++ [':']

/-- Whether a value has items or members, each on lines of its own. -/
def isBlock : Json → Bool
  | .array (_ :: _) | .object (_ :: _) => true
  | _ => false

/-- The lines of a member, given those of its value. A long key has lines of its own. -/
def memberLines (key : String) (value : Json) (valueLines : List Line) : List Line :=
  if isSimpleKey key then
    match value with
    | .array (_ :: _) => (keyText key ++ ['\n']) :: valueLines
    | .object (_ :: _) => (keyText key ++ ['\n']) :: valueLines.map indentLine
    | _ => hang (keyText key ++ [' ']) valueLines
  else hang ['?', ' '] (textLines key) ++ hang [':', ' '] valueLines

mutual

/-- The lines of a value. Those of a text after its first are not yet indented. -/
def lines : Json → List Line
  | .null => ["null\n".toList]
  | .bool true => ["true\n".toList]
  | .bool false => ["false\n".toList]
  | .number n => [(numberText n).toList ++ ['\n']]
  | .string s => textLines s
  | .array [] => ["[]\n".toList]
  | .array (v :: rest) => itemLines (v :: rest)
  | .object [] => ["\x7b\x7d\n".toList]
  | .object (m :: rest) => entryLines (m :: rest)

/-- The lines of items, each behind a dash. -/
def itemLines : List Json → List Line
  | [] => []
  | v :: rest => hang ['-', ' '] (lines v) ++ itemLines rest

/-- The lines of members, each behind its key. -/
def entryLines : List (String × Json) → List Line
  | [] => []
  | (key, v) :: rest => memberLines key v (lines v) ++ entryLines rest

end

/-- The text of a value. -/
def write (v : Json) : String :=
  let ls := if isBlock v then lines v else hang [] (lines v)
  String.ofList ls.flatten

end Yaml

end DocStore
