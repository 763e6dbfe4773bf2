import DocStore.Json.Reader
/-!
# What a plain scalar stands for

A plain scalar is null, a truth value, a number, or else a text. The reader takes the meaning from
here, and the writer the question whether a text has to be quoted to stay one.

* Integers are decimal, or have a prefix for base 16, 8 or 2; a row of digits that starts with zero
  is no number. One that exceeds 64 bits but not 128 is an integer that no value holds.
* `.inf` and `.nan` are numbers that no value holds either; a decimal beyond all doubles is a text.
-/

namespace DocStore

namespace Yaml

/-- The meaning of a plain scalar. -/
inductive Meaning where
  | null
  | bool (value : Bool)
  | int (value : Int)
  /-- An integer of more than 64 bits. -/
  | wideInt
  | float (value : Double)
  /-- An infinity, or no number. -/
  | notFinite
  | text

namespace Meaning

/-- The words for null. -/
def isNullWord (s : String) : Bool := ["null", "Null", "NULL", "~"].contains s

/-- The words for truth values. -/
def boolWord? (s : String) : Option Bool :=
  if ["true", "True", "TRUE"].contains s then some true
  else if ["false", "False", "FALSE"].contains s then some false
  else none

/-- A row of two digits or more that starts with zero, with or without a sign. -/
def isZeroLed (s : List Char) : Bool :=
  let digits :=
    match s with
    | '-' :: rest | '+' :: rest => rest
    | s => s
  match digits with
  | '0' :: d :: rest => (d :: rest).all Char.isDigit
  | _ => false

/-- The number that digits of a base stand for. -/
def digitsIn? (base : Nat) (digits : List Char) : Option Nat :=
  if digits.isEmpty then none
  else
    digits.foldl (fun n c => do
      let n ← n
      let d ← Json.hexValue? c
      if d < base then some (n * base + d) else none) (some 0)

/-- The number that digits stand for, in the base that their prefix names. -/
def magnitude? (s : List Char) : Option Nat :=
  match s with
  | '0' :: 'x' :: digits => digitsIn? 16 digits
  | '0' :: 'o' :: digits => digitsIn? 8 digits
  | '0' :: 'b' :: digits => digitsIn? 2 digits
  | digits => digitsIn? 10 digits

/-- The integer that a text stands for. -/
def integer? (s : List Char) : Option Int :=
  if isZeroLed s then none
  else
    match s with
    | '-' :: rest => (magnitude? rest).map fun n => -(n : Int)
    | '+' :: rest => (magnitude? rest).map fun n => (n : Int)
    | rest => (magnitude? rest).map fun n => (n : Int)

/-- The digits before and after a point, at least one in all, and what follows them. -/
def mantissa? (s : List Char) : Option (List Char × List Char × List Char) :=
  let whole := s.takeWhile Char.isDigit
  let (places, rest) :=
    match s.dropWhile Char.isDigit with
    | '.' :: rest => (rest.takeWhile Char.isDigit, rest.dropWhile Char.isDigit)
    | rest => ([], rest)
  if whole.isEmpty && places.isEmpty then none else some (whole, places, rest)

/-- The double that a decimal text stands for. -/
def decimal? (s : List Char) : Option Double := do
  let (negative, s) :=
    match s with
    | '-' :: rest => (true, rest)
    | '+' :: rest => (false, rest)
    | s => (false, s)
  let (whole, places, rest) ← mantissa? s
  let (exponent, rest) ← Json.readExponent rest
  if rest.isEmpty then
    Double.ofDecimal? negative (Json.digitsValue (whole ++ places))
      (exponent.getD 0 - places.length)
  else none

/-- The words for numbers that are not finite. -/
def isNotFiniteWord (s : String) : Bool :=
  [".inf", ".Inf", ".INF", "+.inf", "+.Inf", "+.INF", "-.inf", "-.Inf", "-.INF",
   ".nan", ".NaN", ".NAN"].contains s

/-- The meaning of a number that is no integer of at most 128 bits. -/
def ofFloat (s : String) : Meaning :=
  if isZeroLed s.toList then text
  else if isNotFiniteWord s then notFinite
  else
    match decimal? s.toList with
    | some d => float d
    | none => text

/-- The meaning of a number. -/
def ofNumber (s : String) : Meaning :=
  match integer? s.toList with
  | some n =>
    if Number.IntegerRange n then int n
    else if -Nat.pow 2 127 ≤ n ∧ n < Nat.pow 2 128 then wideInt
    else ofFloat s
  | none => ofFloat s

/-- The meaning of a plain scalar. -/
def of (s : String) : Meaning :=
  if s = "" || isNullWord s then null
  else
    match boolWord? s with
    | some b => bool b
    | none => ofNumber s

end Meaning

end Yaml

end DocStore
