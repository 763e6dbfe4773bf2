/-!
# Timestamps

A clock reading is a number of microseconds since the start of 1970. A record stores it as text, in
coordinated universal time with milliseconds. Up to the year 9999 the text has a fixed width, so
its order is the order of time.
-/

namespace DocStore

/-- A day of the calendar. -/
structure Date where
  year : Nat
  month : Nat
  day : Nat
deriving DecidableEq

namespace Date

/-- The day that lies this many days after 1 March of the year 0. Years are counted from March, so
a leap day ends its year: four centuries have 146097 days, a century 36524, four years 1461. -/
def ofMarchDays (days : Nat) : Date :=
  let era := days / 146097
  let dayOfEra := days % 146097
  -- takes out the leap days first, then divides by plain years
  let yearOfEra := (dayOfEra - dayOfEra / 1460 + dayOfEra / 36524 - dayOfEra / 146096) / 365
  let dayOfYear := dayOfEra - (365 * yearOfEra + yearOfEra / 4 - yearOfEra / 100)
  -- five months from March on have 153 days
  let fromMarch := (5 * dayOfYear + 2) / 153
  let day := dayOfYear - (153 * fromMarch + 2) / 5 + 1
  let month := if fromMarch < 10 then fromMarch + 3 else fromMarch - 9
  let year := yearOfEra + era * 400 + (if month ≤ 2 then 1 else 0)
  ⟨year, month, day⟩

/-- The day that lies this many days after 1 January 1970. -/
def ofEpochDays (days : Nat) : Date := ofMarchDays (days + 719468)

end Date

namespace Timestamp

/-- A number with leading zeros up to the width. -/
def zeroPadded (width n : Nat) : List Char :=
  let digits := Nat.toDigits 10 n
  List.replicate (width - digits.length) '0' ++ digits

/-- The text of a clock reading in microseconds. Years of five digits get a plus sign. -/
def textChars (micros : Nat) : List Char :=
  let millis := micros / 1000
  let seconds := millis / 1000
  let date := Date.ofEpochDays (seconds / 86400)
  let sign := if date.year > 9999 then ['+'] else []
  sign ++ zeroPadded 4 date.year ++ '-' :: zeroPadded 2 date.month ++
    '-' :: zeroPadded 2 date.day ++
    'T' :: zeroPadded 2 (seconds / 3600 % 24) ++ ':' :: zeroPadded 2 (seconds / 60 % 60) ++
    ':' :: zeroPadded 2 (seconds % 60) ++ '.' :: zeroPadded 3 (millis % 1000) ++ ['Z']

def text (micros : Nat) : String := String.ofList (textChars micros)

end Timestamp

end DocStore
