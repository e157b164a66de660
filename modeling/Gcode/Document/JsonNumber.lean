import Gcode.Decimal.Layout

/-!
# Numbers in JSON

JSON takes fewer numerals than a program line: no plus sign, no leading zero, and digits on both
sides of a point.  A numeral without point and exponent that fits 64 bits is an integer.  Any
other is read as the leading digits that fit 64 bits, times or over a power of ten; that is quick,
and now and then the double next to the nearest one.
-/

namespace Gcode.Json

def layout : Layout :=
  { positional := fun leading => -5 ≤ leading && leading ≤ 15
    wholeFraction := some ['0']
    plusExponent := true
    tie := .even
    nan := "null"
    infinite := "null"
    negativeInfinite := "null" }

def isNumber (numeral : Numeral) : Bool :=
  numeral.sign != some '+' &&
    numeral.whole != [] && (numeral.whole.length == 1 || numeral.whole.head? != some '0') &&
      numeral.fraction != some []

def integerValue? (numeral : Numeral) : Option Int :=
  if numeral.fraction.isSome || numeral.exponent.isSome then none
  else
    let magnitude := digitsValue numeral.whole
    if numeral.negative then
      if 0 < magnitude && magnitude ≤ 0x8000000000000000 then some (-magnitude) else none
    else if magnitude < UInt64.size then some magnitude
    else none

def fillSignificand (significand : Nat) : List Char → Nat × List Char
  | [] => (significand, [])
  | digit :: digits =>
    let longer := 10 * significand + (digit.toNat - '0'.toNat)
    if longer < UInt64.size then fillSignificand longer digits else (significand, digit :: digits)

def powerOfTen (exponent : Nat) : Float := Float.ofScientific 1 false exponent

/-- Shifts a value by a power of ten: one multiplication or one division, and divisions by the
greatest power before it where one does not reach.  Nothing beyond all doubles. -/
def shift (value : Float) (exponent : Int) : (steps : Nat) → Option Float
  | 0 => some value
  | steps + 1 =>
    if exponent.natAbs ≤ 308 then
      if 0 ≤ exponent then
        let product := value * powerOfTen exponent.natAbs
        if product == infinity then none else some product
      else some (value / powerOfTen exponent.natAbs)
    else if value == 0 then some value
    else if 0 ≤ exponent then none
    else shift (value / powerOfTen 308) (exponent + 308) steps

/-- The double of a numeral, if it has one.  Two divisions by the greatest power of ten take every
significand to zero. -/
def floatValue? (numeral : Numeral) : Option Float := do
  let (significand, dropped) := fillSignificand 0 numeral.whole
  let fraction := numeral.fraction.getD []
  let (significand, unread) := fillSignificand significand fraction
  let exponent : Int := dropped.length - (fraction.length - unread.length : Nat) +
    numeral.exponent.elim 0 NumeralExponent.value
  let magnitude ← shift (Float.ofNat significand) exponent 4
  pure (if numeral.negative then -magnitude else magnitude)

end Gcode.Json
