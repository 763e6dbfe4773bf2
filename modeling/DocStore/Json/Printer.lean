import DocStore.Double.Decimal
import DocStore.Json.Basic
/-!
# Writing JSON

Two layouts of one text: compact, without any blank, and indented by two spaces a level with one
item or member a line. Empty containers are written without a line break in both.
-/

namespace DocStore

namespace Json

/-- A float has the fewest digits that read back. It is written without exponent when its first
digit stands for `10 ^ -5` up to `10 ^ 15`, and then has a digit after the point. -/
def floatStyle : DecimalStyle where
  positional e := -5 ≤ e && e ≤ 15
  wholePoint := true
  plusSign := "+"
  exponentWidth := 1
  mantissaPoint := false
  zeroSign := true

end Json

/-- The text of a double in JSON. -/
def Double.jsonText (d : Double) : String := Json.floatStyle.layout d.negative d.shortest

/-- The text of a number in JSON. -/
def Number.jsonText : Number → String
  | .int n => toString n
  | .float d => d.jsonText

namespace Json

-- ---------------------------------------------------------------------------
-- Strings
-- ---------------------------------------------------------------------------

/-- The digit of a number below sixteen. -/
def hexDigit (n : Nat) : Char := Char.ofNat (if n < 10 then 48 + n else 87 + n)

/-- A character as it stands between quotes: quote, backslash and control characters are
escaped, all others stand for themselves. -/
def escaped (c : Char) : List Char :=
  if c = '"' then ['\\', '"']
  else if c = '\\' then ['\\', '\\']
  else if c = '\n' then ['\\', 'n']
  else if c = '\r' then ['\\', 'r']
  else if c = '\t' then ['\\', 't']
  else if c = '\x08' then ['\\', 'b']
  else if c = '\x0c' then ['\\', 'f']
  else if c.toNat < 32 then ['\\', 'u', '0', '0', hexDigit (c.toNat / 16), hexDigit (c.toNat % 16)]
  else [c]

/-- A string between quotes. -/
def quoted (s : String) : List Char := '"' :: s.toList.flatMap escaped ++ ['"']

-- ---------------------------------------------------------------------------
-- Compact text
-- ---------------------------------------------------------------------------

mutual

/-- The compact text. -/
def compactChars : Json → List Char
  | null => ['n', 'u', 'l', 'l']
  | bool true => ['t', 'r', 'u', 'e']
  | bool false => ['f', 'a', 'l', 's', 'e']
  | number n => n.jsonText.toList
  | string s => quoted s
  | array items => '[' :: compactItems items ++ [']']
  | object members => '{' :: compactMembers members ++ ['}']

/-- Items with commas between them. -/
def compactItems : List Json → List Char
  | [] => []
  | [v] => compactChars v
  | v :: w :: rest => compactChars v ++ ',' :: compactItems (w :: rest)

/-- Members with commas between them. -/
def compactMembers : List (String × Json) → List Char
  | [] => []
  | [(name, v)] => quoted name ++ ':' :: compactChars v
  | (name, v) :: w :: rest =>
    quoted name ++ ':' :: compactChars v ++ ',' :: compactMembers (w :: rest)

end

/-- The compact text of a value. -/
def compact (v : Json) : String := String.ofList v.compactChars

-- ---------------------------------------------------------------------------
-- Indented text
-- ---------------------------------------------------------------------------

/-- A line break and the blanks of a level. -/
def newline (level : Nat) : List Char := '\n' :: List.replicate (2 * level) ' '

mutual

/-- The indented text of a value that stands at a level. -/
def indentedChars (level : Nat) : Json → List Char
  | array (v :: rest) =>
    '[' :: newline (level + 1) ++ indentedItems (level + 1) (v :: rest) ++ newline level ++ [']']
  | object (m :: rest) =>
    '{' :: newline (level + 1) ++ indentedMembers (level + 1) (m :: rest) ++ newline level ++ ['}']
  | v => compactChars v

/-- Items, each on a line of its own. -/
def indentedItems (level : Nat) : List Json → List Char
  | [] => []
  | [v] => indentedChars level v
  | v :: w :: rest =>
    indentedChars level v ++ ',' :: newline level ++ indentedItems level (w :: rest)

/-- Members, each on a line of its own. -/
def indentedMembers (level : Nat) : List (String × Json) → List Char
  | [] => []
  | [(name, v)] => quoted name ++ ':' :: ' ' :: indentedChars level v
  | (name, v) :: w :: rest =>
    quoted name ++ ':' :: ' ' :: indentedChars level v ++
      ',' :: newline level ++ indentedMembers level (w :: rest)

end

/-- The indented text of a value. -/
def indented (v : Json) : String := String.ofList (v.indentedChars 0)

end Json

end DocStore
