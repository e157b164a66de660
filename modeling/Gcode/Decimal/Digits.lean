import Gcode.Decimal.Rounding
import Gcode.Decimal.Binary

/-!
# Decimal digits of a binary magnitude

Three ways to write `significand * 2 ^ exponent` in decimal digits, each computed exactly:

* `Decimal.shortest`: the fewest digits that lie closer to the magnitude than to any other double;
* `Decimal.significant`: a given number of significant digits;
* `Decimal.atPlaces`: a given number of places after the decimal point.

The first two search the decimal grids `… 100, 10, 1, 0.1 …` from the coarsest downwards.  All count
in fractions of natural numbers, in units of a power of ten, and the last two round halves to even.
-/

namespace Gcode

/-- The nonnegative number `coefficient * 10 ^ exponent`. -/
structure Decimal where
  coefficient : Nat
  exponent : Int
  deriving DecidableEq, Repr

namespace Decimal

def digits (decimal : Decimal) : List Char :=
  Nat.toDigits 10 decimal.coefficient

def leadingExponent (decimal : Decimal) : Int :=
  decimal.digits.length - 1 + decimal.exponent

/-! ## Scaling by a power of ten -/

def scaledNumerator (numerator : Nat) (exponent : Int) : Nat :=
  numerator * Nat.pow 10 (-exponent).toNat

def scaledDenominator (denominator : Nat) (exponent : Int) : Nat :=
  denominator * Nat.pow 10 exponent.toNat

/-- An exponent of ten whose power exceeds every magnitude of at most `bitLength` bits. -/
def exponentAbove (bitLength : Int) : Int :=
  bitLength * 30103 / 100000 + 2

/-! ## Shortest digits -/

/-- The reals that are rounded to one double, four times enlarged: the double itself is `centre`,
and the ends belong to the interval exactly if `closed`. -/
structure RoundingInterval where
  low : Nat
  centre : Nat
  high : Nat
  closed : Bool
  deriving DecidableEq, Repr

/-- The interval around `significand`, in quarters of its unit.  Below a power of two the next
double is only half as far away. -/
def RoundingInterval.around (magnitude : Binary) : RoundingInterval :=
  let centre := 4 * magnitude.significand
  let atPower := magnitude.significand = 0x10000000000000 && magnitude.exponent ≠ -1074
  { low := if atPower then centre - 1 else centre - 2
    centre
    high := centre + 2
    closed := magnitude.significand % 2 == 0 }

def RoundingInterval.contains (interval : RoundingInterval) (scale denominator point : Nat) :
    Bool :=
  let place := point * denominator
  if interval.closed then interval.low * scale ≤ place && place ≤ interval.high * scale
  else interval.low * scale < place && place < interval.high * scale

/-- The point of the grid `10 ^ exponent` in the interval that is nearest to the double, if there is
one.  Of all points only the two neighbours of the double can be it. -/
def gridPoint (tie : Tie) (interval : RoundingInterval) (scale denominator : Nat) : Option Nat :=
  let floor := interval.centre * scale / denominator
  let below := interval.contains scale denominator floor
  let above := interval.contains scale denominator (floor + 1)
  if below && above then some (roundQuotient tie (interval.centre * scale) denominator)
  else if below then some floor
  else if above then some (floor + 1)
  else none

def searchGrids (tie : Tie) (interval : RoundingInterval) (power : Int) :
    (grids : Nat) → (exponent : Int) → Decimal
  | 0, exponent => ⟨0, exponent⟩
  | grids + 1, exponent =>
    let scale := scaledNumerator (Nat.pow 2 power.toNat) exponent
    let denominator := scaledDenominator (Nat.pow 2 (-power).toNat) exponent
    match gridPoint tie interval scale denominator with
    | some coefficient => ⟨coefficient, exponent⟩
    | none => searchGrids tie interval power grids (exponent - 1)

def shortest (tie : Tie) (magnitude : Binary) : Decimal :=
  if magnitude.significand = 0 then ⟨0, 0⟩
  else
    searchGrids tie (.around magnitude) (magnitude.exponent - 2) 24
      (exponentAbove magnitude.bitLength)

/-! ## A given number of digits -/

def leadingExponentFrom (numerator denominator : Nat) : (steps : Nat) → (exponent : Int) → Int
  | 0, exponent => exponent
  | steps + 1, exponent =>
    if scaledDenominator denominator exponent ≤ scaledNumerator numerator exponent then exponent
    else leadingExponentFrom numerator denominator steps (exponent - 1)

def significant (count : Nat) (magnitude : Binary) : Decimal :=
  if magnitude.significand = 0 then ⟨0, -count⟩
  else
    let numerator := magnitude.numerator
    let denominator := magnitude.denominator
    let leading := leadingExponentFrom numerator denominator 8 (exponentAbove magnitude.bitLength)
    let exponent := leading - count
    let coefficient := roundQuotient .even (scaledNumerator numerator exponent)
      (scaledDenominator denominator exponent)
    if coefficient = Nat.pow 10 (count + 1) then ⟨Nat.pow 10 count, exponent + 1⟩
    else ⟨coefficient, exponent⟩

def atPlaces (places : Nat) (magnitude : Binary) : Decimal :=
  ⟨roundQuotient .even (magnitude.numerator * Nat.pow 10 places) magnitude.denominator, -places⟩

/-! ## Reading -/

/-- The double nearest to the decimal, halves to even.  Decimals outside `10 ^ -330 .. 10 ^ 310` are
zero and infinity without computing their power of ten. -/
def toFloat (decimal : Decimal) : Float :=
  if decimal.coefficient = 0 then 0
  else if 310 < decimal.leadingExponent then infinity
  else if decimal.leadingExponent < -330 then 0
  else Float.ofScientific decimal.coefficient (decimal.exponent < 0) decimal.exponent.natAbs

end Decimal

end Gcode
