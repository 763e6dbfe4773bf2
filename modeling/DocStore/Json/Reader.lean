import DocStore.Double.Decimal
import DocStore.Json.Basic
/-!
# Reading JSON

A strict reader: no trailing commas, no comments, blanks are space, tab, line feed and carriage
return, and at most `Json.maxDepth` containers around a value. A reading step takes characters and
answers what it read with the characters that follow. Nesting is bounded by the depth that is
left, and a row of items by the number of characters that are left.

* Of members with one name the last value counts, at the place of the first.
* A number without fraction and exponent is an integer if it has 64 bits; every other one is the
  nearest double, and one beyond all doubles is an error.
-/

namespace DocStore

namespace Json

/-- The greatest number of containers around a value. -/
def maxDepth : Nat := 127

/-- Blanks between tokens. -/
def isBlank (c : Char) : Bool := c == ' ' || c == '\n' || c == '\t' || c == '\r'

def skipBlanks (s : List Char) : List Char := s.dropWhile isBlank

-- ---------------------------------------------------------------------------
-- Numbers
-- ---------------------------------------------------------------------------

/-- The number a row of digits stands for. -/
def digitsValue (digits : List Char) : Nat :=
  digits.foldl (fun n c => 10 * n + (c.toNat - 48)) 0

/-- A row of at least one digit. -/
def readDigits (s : List Char) : Option (List Char × List Char) :=
  match s.takeWhile Char.isDigit with
  | [] => none
  | digits => some (digits, s.dropWhile Char.isDigit)

/-- The digits after a point, if there is one. -/
def readFraction : List Char → Option (List Char × List Char)
  | '.' :: rest => readDigits rest
  | s => some ([], s)

/-- The value of an exponent, if there is one. -/
def readExponent : List Char → Option (Option Int × List Char)
  | 'e' :: rest | 'E' :: rest =>
    let (negative, rest) :=
      match rest with
      | '-' :: rest => (true, rest)
      | '+' :: rest => (false, rest)
      | rest => (false, rest)
    (readDigits rest).map fun (digits, rest) =>
      let n : Int := digitsValue digits
      (some (if negative then -n else n), rest)
  | s => some (none, s)

/-- The number with these digits before the point, after it, and this exponent. -/
def numberOf? (negative : Bool) (whole fraction : List Char) (exponent : Option Int) :
    Option Number :=
  let n := digitsValue whole
  let signed : Int := if negative then -n else n
  -- `-0` is kept apart from `0`, so it has to be a double
  if fraction.isEmpty && exponent.isNone && Number.IntegerRange signed && !(negative && n == 0) then
    some (.int signed)
  else
    (Double.ofDecimal? negative (digitsValue (whole ++ fraction))
      (exponent.getD 0 - fraction.length)).map .float

/-- A number after its sign. -/
def readUnsigned (negative : Bool) (s : List Char) : Option (Number × List Char) := do
  let (whole, s) ← readDigits s
  -- no leading zeros: a zero before the point stands alone
  if whole.head? == some '0' && whole.length > 1 then none
  let (fraction, s) ← readFraction s
  let (exponent, s) ← readExponent s
  let n ← numberOf? negative whole fraction exponent
  some (n, s)

def readNumber : List Char → Option (Number × List Char)
  | '-' :: rest => readUnsigned true rest
  | s => readUnsigned false s

-- ---------------------------------------------------------------------------
-- Strings
-- ---------------------------------------------------------------------------

/-- The value of a hexadecimal digit. -/
def hexValue? (c : Char) : Option Nat :=
  if '0' ≤ c ∧ c ≤ '9' then some (c.toNat - 48)
  else if 'a' ≤ c ∧ c ≤ 'f' then some (c.toNat - 87)
  else if 'A' ≤ c ∧ c ≤ 'F' then some (c.toNat - 55)
  else none

/-- The value of four hexadecimal digits. -/
def hexValue4? (a b c d : Char) : Option Nat := do
  some (((← hexValue? a) * 16 + (← hexValue? b)) * 256 + ((← hexValue? c) * 16 + (← hexValue? d)))

/-- The character of a two-letter escape. -/
def shortEscape? : Char → Option Char
  | '"' => some '"'
  | '\\' => some '\\'
  | '/' => some '/'
  | 'b' => some '\x08'
  | 'f' => some '\x0c'
  | 'n' => some '\n'
  | 'r' => some '\r'
  | 't' => some '\t'
  | _ => none

/-- Puts a character before what was read. -/
def prepend (c : Char) (r : Option (List Char × List Char)) : Option (List Char × List Char) :=
  r.map fun (chars, rest) => (c :: chars, rest)

/-- The characters of a string, up to its closing quote. A four-digit escape of the first half of
a surrogate pair needs the second half right after it; a lone half is an error. -/
def readQuoted : List Char → Option (List Char × List Char)
  | [] => none
  | '"' :: rest => some ([], rest)
  | '\\' :: 'u' :: a :: b :: c :: d :: rest =>
    match hexValue4? a b c d with
    | none => none
    | some n =>
      -- the first half of a pair; the second has to follow at once
      if 0xD800 ≤ n ∧ n < 0xDC00 then
        match rest with
        | '\\' :: 'u' :: e :: f :: g :: h :: rest =>
          match hexValue4? e f g h with
          | none => none
          | some m =>
            if 0xDC00 ≤ m ∧ m < 0xE000 then
              prepend (Char.ofNat (0x10000 + (n - 0xD800) * 0x400 + (m - 0xDC00))) (readQuoted rest)
            else none
        | _ => none
      else if 0xDC00 ≤ n ∧ n < 0xE000 then none
      else prepend (Char.ofNat n) (readQuoted rest)
  | '\\' :: c :: rest =>
    match shortEscape? c with
    | some e => prepend e (readQuoted rest)
    | none => none
  | c :: rest => if c.toNat < 32 then none else prepend c (readQuoted rest)

-- ---------------------------------------------------------------------------
-- Values
-- ---------------------------------------------------------------------------

/-- A value that is no container. -/
def readScalar : List Char → Option (Json × List Char)
  | 'n' :: 'u' :: 'l' :: 'l' :: rest => some (null, rest)
  | 't' :: 'r' :: 'u' :: 'e' :: rest => some (bool true, rest)
  | 'f' :: 'a' :: 'l' :: 's' :: 'e' :: rest => some (bool false, rest)
  | '"' :: rest => (readQuoted rest).map fun (chars, rest) => (string (String.ofList chars), rest)
  | s => (readNumber s).map fun (n, rest) => (number n, rest)

/-- Items with commas between them, up to the closing bracket. The first argument bounds their
number. -/
def readRow {α : Type} (item : List Char → Option (α × List Char)) (close : Char) :
    Nat → List Char → Option (List α × List Char)
  | 0, _ => none
  | bound + 1, s =>
    match item s with
    | none => none
    | some (x, rest) =>
      match skipBlanks rest with
      | ',' :: rest => (readRow item close bound rest).map fun (xs, rest) => (x :: xs, rest)
      -- after a comma an item is read, so no comma can trail
      | c :: rest => if c = close then some ([x], rest) else none
      | [] => none

/-- The inside of a container, after its opening bracket: nothing, or a row of items. -/
def readInside {α : Type} (item : List Char → Option (α × List Char)) (close : Char)
    (s : List Char) : Option (List α × List Char) :=
  match skipBlanks s with
  | [] => none
  | c :: rest =>
    if c = close then some ([], rest)
    -- an item takes at least one character, so this many are enough
    else readRow item close (c :: rest).length (c :: rest)

/-- A member of an object, its value read by `value`. -/
def readMember (value : List Char → Option (Json × List Char)) (s : List Char) :
    Option ((String × Json) × List Char) :=
  match skipBlanks s with
  | '"' :: rest =>
    match readQuoted rest with
    | none => none
    | some (name, rest) =>
      match skipBlanks rest with
      | ':' :: rest => (value rest).map fun (v, rest) => ((String.ofList name, v), rest)
      | _ => none
  | _ => none

/-- A value with at most this many containers around what is inside. -/
def readValue : Nat → List Char → Option (Json × List Char)
  | 0, s => readScalar (skipBlanks s)
  | limit + 1, s =>
    match skipBlanks s with
    | '[' :: rest =>
      (readInside (readValue limit) ']' rest).map fun (items, rest) => (array items, rest)
    | '{' :: rest =>
      (readInside (readMember (readValue limit)) '}' rest).map fun (pairs, rest) =>
        (object (Fields.ofPairs pairs), rest)
    | s => readScalar s

/-- The value a text consists of, if it is JSON of at most this depth. -/
def readWithin? (limit : Nat) (s : List Char) : Option Json :=
  match readValue limit s with
  | some (v, rest) => if (skipBlanks rest).isEmpty then some v else none
  | none => none

/-- The value a text consists of, if it is JSON. -/
def read? (text : String) : Option Json := readWithin? maxDepth text.toList

end Json

end DocStore
