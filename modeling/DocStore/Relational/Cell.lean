import DocStore.Json.Printer
import DocStore.Json.Reader
/-!
# Cells of a table

A column has an affinity, which converts what is stored in it: a text that looks like a number
becomes one in a column for numbers, and a number becomes a text in a column for texts. The number
that is stored equals the number that was given, and a column without affinity converts nothing.
-/

namespace DocStore

/-- The content of a cell. -/
inductive Cell where
  | null
  | integer (value : Int)
  | real (value : Double)
  /-- A number beyond all doubles, read from a text. -/
  | infinite (negative : Bool)
  | text (value : String)
deriving DecidableEq

/-- What a column prefers to store. -/
inductive Affinity where
  | text | numeric | integer | none
deriving DecidableEq

/-- The type a column with this affinity is declared with. -/
def Affinity.declaredType : Affinity → String
  | .text => "TEXT"
  | .numeric => "NUMERIC"
  | .integer => "INTEGER"
  | .none => ""

namespace Cell

/-- The integers a cell holds: those of 64 signed bits. -/
def IntegerRange (n : Int) : Prop := -Nat.pow 2 63 ≤ n ∧ n < Nat.pow 2 63

instance (n : Int) : Decidable (IntegerRange n) := inferInstanceAs (Decidable (_ ∧ _))

/-- A real as text has at most fifteen digits, always one after the point, and an exponent of at
least two digits when its first digit stands for less than `10 ^ -4` or more than `10 ^ 14`. -/
def realStyle : DecimalStyle where
  positional e := -4 ≤ e && e ≤ 14
  wholePoint := true
  plusSign := "+"
  exponentWidth := 2
  mantissaPoint := true
  zeroSign := false

/-- The text a real becomes in a column for texts. -/
def realText (d : Double) : String := realStyle.layout d.negative (d.toPlaces 15)

-- ---------------------------------------------------------------------------
-- Texts that look like numbers
-- ---------------------------------------------------------------------------

/-- A real as a number cell: an integer if it is a whole number of 64 bits short of the extremes. -/
def ofReal (d : Double) : Cell :=
  match d.toInt? with
  | some n => if -Nat.pow 2 63 < n ∧ n < Nat.pow 2 63 - 1 then integer n else real d
  | none => real d

/-- Blanks around a number in a text. -/
def isBlank (c : Char) : Bool := c == ' ' || ('\t' ≤ c && c ≤ '\r')

/-- The number cell that digits, a fraction and an exponent stand for. Without fraction and
exponent it is an integer if it fits. -/
def ofNumeral (negative : Bool) (whole : List Char) (fraction : Option (List Char))
    (exponent : Option Int) : Cell :=
  let n : Int := Json.digitsValue whole
  let signed := if negative then -n else n
  if fraction.isNone && exponent.isNone && IntegerRange signed then integer signed
  else
    let places := fraction.getD []
    match Double.ofDecimal? negative (Json.digitsValue (whole ++ places))
        (exponent.getD 0 - places.length) with
    | some d => ofReal d
    | none => infinite negative

/-- The digits before and after a point, at least one in all, and what follows them. -/
def readMantissa (s : List Char) : Option (List Char × Option (List Char) × List Char) :=
  let whole := s.takeWhile Char.isDigit
  match s.dropWhile Char.isDigit with
  | '.' :: rest =>
    let places := rest.takeWhile Char.isDigit
    if whole.isEmpty && places.isEmpty then none
    else some (whole, some places, rest.dropWhile Char.isDigit)
  | rest => if whole.isEmpty then none else some (whole, none, rest)

/-- The number a text looks like: blanks, a sign, digits with at most one point, an exponent,
blanks. -/
def ofText? (text : String) : Option Cell :=
  let s := text.toList.dropWhile isBlank
  let (negative, s) :=
    match s with
    | '-' :: rest => (true, rest)
    | '+' :: rest => (false, rest)
    | s => (false, s)
  match readMantissa s with
  | none => none
  | some (whole, fraction, rest) =>
    match Json.readExponent rest with
    | none => none
    | some (exponent, rest) =>
      if (rest.dropWhile isBlank).isEmpty then some (ofNumeral negative whole fraction exponent)
      else none

-- ---------------------------------------------------------------------------
-- Conversion
-- ---------------------------------------------------------------------------

/-- A cell as a column for texts stores it. -/
def toText : Cell → Cell
  | integer n => text (toString n)
  | real d => text (realText d)
  | infinite negative => text (if negative then "-Inf" else "Inf")
  | c => c

/-- A cell as a column for numbers stores it. -/
def toNumber : Cell → Cell
  | text s => (ofText? s).getD (text s)
  | real d => ofReal d
  | c => c

/-- A cell as a column with this affinity stores it. -/
def convert (a : Affinity) (c : Cell) : Cell :=
  match a with
  | .text => c.toText
  | .numeric | .integer => c.toNumber
  | .none => c

/-- A value of a record as it is handed to a table. -/
def ofJson : Json → Cell
  | .null => null
  | .bool b => integer (if b then 1 else 0)
  | .number (.int n) => if IntegerRange n then integer n else real (Number.int n).toDouble
  | .number (.float d) => real d
  | .string s => text s
  | v => text v.compact

end Cell

end DocStore
