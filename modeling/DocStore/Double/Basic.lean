/-!
# Finite binary64 numbers

A `Double` is a sign, a mantissa and an exponent in the one canonical form the binary64 format
allows, so two doubles are equal exactly when their bit patterns are (zero has two signs).
There is no infinity and no NaN: an operation whose result leaves the finite range answers `none`.

Every finite double is a whole multiple of `2 ^ -1074`. `Double.units` is that multiple, and it is
the view through which values are compared and added: the order of doubles is the order of `Int`.

* `Double.nearest?`: the double nearest to a quotient of naturals, ties to the even mantissa. All
  other ways to make a double (`ofInt?`, `ofDecimal?`, `add?`, `mul?`) round an exact result with
  it.
-/

namespace DocStore

/-- Mantissa and exponent of a finite binary64 number: 53 bits, and the leading one set unless the
exponent is already the least. -/
def Double.Canonical (mantissa : Nat) (exponent : Int) : Prop :=
  mantissa < Nat.pow 2 53 ∧ -1074 ≤ exponent ∧ exponent ≤ 971 ∧
    (Nat.pow 2 52 ≤ mantissa ∨ exponent = -1074)

instance (m : Nat) (e : Int) : Decidable (Double.Canonical m e) := by
  unfold Double.Canonical; infer_instance

/-- A finite binary64 number, `± mantissa * 2 ^ exponent`. -/
structure Double where
  negative : Bool
  mantissa : Nat
  exponent : Int
  canonical : Double.Canonical mantissa exponent
deriving DecidableEq

namespace Double

/-- The zero of the given sign. -/
def signedZero (negative : Bool) : Double := ⟨negative, 0, -1074, by decide⟩

/-- Positive zero. -/
def zero : Double := signedZero false

instance : Inhabited Double := ⟨zero⟩

/-- How many steps of `2 ^ -1074` the number is away from zero. -/
def magnitude (d : Double) : Nat := d.mantissa * Nat.pow 2 (d.exponent + 1074).toNat

/-- The value in steps of `2 ^ -1074`; both zeros have the value `0`. -/
def units (d : Double) : Int := if d.negative then -(d.magnitude : Int) else d.magnitude

/-- Order by value. -/
def order (a b : Double) : Ordering := compare a.units b.units

/-- Equality by value: the two zeros are the same value. -/
def sameValue (a b : Double) : Bool := a.units == b.units

-- ---------------------------------------------------------------------------
-- Rounding
-- ---------------------------------------------------------------------------

/-- The whole number nearest to `num / den`, a half going to the even neighbour. -/
def roundHalfEven (num den : Nat) : Nat :=
  let q := num / den
  let twice := 2 * (num % den)
  if twice > den || (twice == den && q % 2 == 1) then q + 1 else q

/-- The exponent at which `num / den` has a mantissa of 53 bits, or the least exponent if that
would be smaller still. Both arguments are positive. -/
def exponentOf (num den : Nat) : Int :=
  -- from the lengths in bits; right, or one too great
  let guess : Int := (num.log2 : Int) - den.log2 - 52
  let fits := Nat.pow 2 52 * den * Nat.pow 2 guess.toNat ≤ num * Nat.pow 2 (-guess).toNat
  max (-1074) (if fits then guess else guess - 1)

/-- The number with this mantissa and exponent, if binary64 has it. -/
def ofParts? (negative : Bool) (mantissa : Nat) (exponent : Int) : Option Double :=
  if h : Canonical mantissa exponent then some ⟨negative, mantissa, exponent, h⟩ else none

/-- The double nearest to `± num / den`, ties to the even mantissa; `none` beyond the finite
range. -/
def nearest? (negative : Bool) (num den : Nat) : Option Double :=
  if num = 0 then some (signedZero negative)
  else
    let e := exponentOf num den
    let m := roundHalfEven (num * Nat.pow 2 (-e).toNat) (den * Nat.pow 2 e.toNat)
    -- rounding up carried into a 54th bit
    if m = Nat.pow 2 53 then ofParts? negative (Nat.pow 2 52) (e + 1)
    else ofParts? negative m e

/-- The double nearest to an integer. -/
def ofInt? (n : Int) : Option Double := nearest? (n < 0) n.natAbs 1

/-- The double nearest to `± digits * 10 ^ exponent`. Exponents far outside the range of binary64
are settled without computing the power. -/
def ofDecimal? (negative : Bool) (digits : Nat) (exponent : Int) : Option Double :=
  if digits = 0 then some (signedZero negative)
  -- beyond `10 ^ 309` and below `10 ^ -324` nothing is left to round
  else if exponent > 400 then none
  else if exponent + digits.log2 + 1 < -400 then some (signedZero negative)
  else nearest? negative (digits * Nat.pow 10 exponent.toNat) (Nat.pow 10 (-exponent).toNat)

-- ---------------------------------------------------------------------------
-- Arithmetic
-- ---------------------------------------------------------------------------

/-- The double nearest to the sum. A sum of zero is negative only if both terms are. -/
def add? (a b : Double) : Option Double :=
  let sum := a.units + b.units
  if sum = 0 then some (signedZero (a.negative && b.negative))
  else nearest? (sum < 0) sum.natAbs (Nat.pow 2 1074)

/-- The double nearest to the product. -/
def mul? (a b : Double) : Option Double :=
  nearest? (a.negative != b.negative) (a.magnitude * b.magnitude) (Nat.pow 2 2148)

/-- The value, if it is a whole number. -/
def toInt? (d : Double) : Option Int :=
  if d.units % Nat.pow 2 1074 = 0 then some (d.units / Nat.pow 2 1074) else none

end Double

end DocStore
