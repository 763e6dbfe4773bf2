import DocStore.Double.Basic
/-!
# Decimal text of doubles

A finite double is written with decimal digits in two steps: which digits, and how they are laid
out.

* `Double.shortest`: the fewest digits that read back to the same double; of two such candidates
  the nearer one, of two equally near ones the even one.
* `Double.toPlaces`: a set number of significant digits, a half going away from zero.
* `DecimalStyle`: where the point and the exponent go, as one record per output format.
-/

namespace DocStore

/-- The number `digits * 10 ^ exponent`. -/
structure Decimal where
  digits : Nat
  exponent : Int
deriving DecidableEq

namespace Decimal

/-- Moves trailing zeros of the digits into the exponent. At most `bound` of them. -/
def strip : Nat → Decimal → Decimal
  | 0, d => d
  | bound + 1, d =>
    if d.digits ≠ 0 ∧ d.digits % 10 = 0 then strip bound ⟨d.digits / 10, d.exponent + 1⟩ else d

end Decimal

namespace Double

/-- The number of decimal places before the point: the least `k` with `num / den < 10 ^ k`. -/
def decimalScale (num den : Nat) : Int :=
  -- `log 2` to the base ten is about 0.30103; the list below corrects the guess
  let guess : Int := ((num.log2 : Int) - den.log2) * 30103 / 100000
  let below (k : Int) : Bool := num * Nat.pow 10 (-k).toNat < den * Nat.pow 10 k.toNat
  ([guess - 1, guess, guess + 1, guess + 2].find? below).getD (guess + 3)

/-- The digits of `num / den` cut at the place `10 ^ place`, and what is left as a fraction. -/
def cutAt (num den : Nat) (place : Int) : Nat × Nat × Nat :=
  let n := num * Nat.pow 10 (-place).toNat
  let d := den * Nat.pow 10 place.toNat
  (n / d, n % d, d)

/-- The magnitude as a quotient of naturals. -/
def ratio (d : Double) : Nat × Nat :=
  (d.mantissa * Nat.pow 2 d.exponent.toNat, Nat.pow 2 (-d.exponent).toNat)

/-- Whether the decimal, with the sign of `d`, is read as `d`. -/
def isReadFrom (d : Double) (c : Decimal) : Bool :=
  ofDecimal? d.negative c.digits c.exponent == some d

/-- The neighbours of the magnitude on the grid of `10 ^ place` that read back, nearer one first. -/
def candidates (d : Double) (place : Int) : List Decimal :=
  let (num, den) := d.ratio
  let (low, rest, whole) := cutAt num den place
  -- the nearer neighbour first, the even one of two equally near
  let lowFirst := 2 * rest < whole || (2 * rest == whole && low % 2 == 0)
  let both := if lowFirst then [low, low + 1] else [low + 1, low]
  (both.map (⟨·, place⟩)).filter d.isReadFrom

/-- Tries grids of more and more digits, down from `10 ^ place`. Should none of `count` grids do,
the exact value is the answer. -/
def searchDigits (d : Double) : Nat → Int → Decimal
  | 0, _ =>
    if d.exponent < 0 then ⟨d.mantissa * Nat.pow 5 (-d.exponent).toNat, d.exponent⟩
    else ⟨d.mantissa * Nat.pow 2 d.exponent.toNat, 0⟩
  | count + 1, place =>
    match d.candidates place with
    | c :: _ => c
    | [] => searchDigits d count (place - 1)

/-- The fewest digits that read back to `d`, without trailing zeros. -/
def shortest (d : Double) : Decimal :=
  if d.mantissa = 0 then ⟨0, 0⟩
  else
    let (num, den) := d.ratio
    -- 17 digits tell all doubles apart
    (searchDigits d 17 (decimalScale num den - 1)).strip 800

/-- The magnitude rounded to `count` significant digits, a half going up, without trailing
zeros. -/
def toPlaces (count : Nat) (d : Double) : Decimal :=
  if d.mantissa = 0 then ⟨0, 0⟩
  else
    let (num, den) := d.ratio
    let place := decimalScale num den - count
    let (low, rest, whole) := cutAt num den place
    (Decimal.mk (if whole ≤ 2 * rest then low + 1 else low) place).strip 800

end Double

/-- How a format lays out the digits of a number. -/
structure DecimalStyle where
  /-- The exponents of the first digit that are written without exponent. -/
  positional : Int → Bool
  /-- Whole numbers written without exponent end in a point and a zero. -/
  wholePoint : Bool
  /-- The sign written before an exponent that is not negative. -/
  plusSign : String
  /-- The least number of digits of the exponent. -/
  exponentWidth : Nat
  /-- A single digit before an exponent is followed by a point and a zero. -/
  mantissaPoint : Bool
  /-- A negative zero keeps its sign. -/
  zeroSign : Bool

namespace DecimalStyle

/-- A whole number with at least `width` digits. -/
def padded (width n : Nat) : String :=
  let s := toString n
  String.ofList (List.replicate (width - s.length) '0') ++ s

/-- Digits with the point after the first `point` of them; zeros fill what is missing. -/
def placePoint (style : DecimalStyle) (digits : String) (point : Int) : String :=
  if point ≤ 0 then "0." ++ String.ofList (List.replicate (-point).toNat '0') ++ digits
  else
    let whole := point.toNat
    -- a whole number: zeros up to the point
    if digits.length ≤ whole then
      digits ++ String.ofList (List.replicate (whole - digits.length) '0')
        ++ (if style.wholePoint then ".0" else "")
    else String.ofList (digits.toList.take whole) ++ "." ++ String.ofList (digits.toList.drop whole)

/-- One digit, the others after a point, and the exponent. -/
def withExponent (style : DecimalStyle) (digits : String) (exponent : Int) : String :=
  let head := String.ofList (digits.toList.take 1)
  let tail := String.ofList (digits.toList.drop 1)
  let mantissa :=
    if tail.isEmpty then head ++ (if style.mantissaPoint then ".0" else "") else head ++ "." ++ tail
  let sign := if exponent < 0 then "-" else style.plusSign
  mantissa ++ "e" ++ sign ++ padded style.exponentWidth exponent.natAbs

/-- The text of a decimal in this style. -/
def layout (style : DecimalStyle) (negative : Bool) (d : Decimal) : String :=
  let digits := toString d.digits
  let first : Int := d.exponent + digits.length - 1
  let body :=
    if style.positional first then style.placePoint digits (first + 1)
    else style.withExponent digits first
  if negative && (style.zeroSign || d.digits != 0) then "-" ++ body else body

end DecimalStyle

end DocStore
