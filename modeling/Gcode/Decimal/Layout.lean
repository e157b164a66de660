import Gcode.Decimal.Numeral

/-!
# Layouts

How the shortest digits of a double are laid out as a numeral.  The digits are the same everywhere;
a `Layout` holds the decisions in which output formats differ: which exponents are written
positionally, what a whole number ends in, which way a tie goes, and the words for the values that
are no numbers.

`fixedText` and `significantText` write a given number of digits instead of the shortest ones.
-/

namespace Gcode

structure Layout where
  /-- The exponents of the leading digit at which no exponent is written. -/
  positional : Int → Bool
  wholeFraction : Option (List Char)
  plusExponent : Bool
  /-- Where an exact half between two equally short digit strings goes. -/
  tie : Tie
  nan : String
  infinite : String
  negativeInfinite : String

namespace Layout

def signOf (negative : Bool) : Option Char :=
  if negative then some '-' else none

def positionalNumeral (wholeFraction : Option (List Char)) (negative : Bool) (decimal : Decimal) :
    Numeral :=
  let digits := decimal.digits
  if 0 ≤ decimal.exponent then
    ⟨signOf negative, digits ++ List.replicate decimal.exponent.toNat '0', wholeFraction, none⟩
  else
    let places := (-decimal.exponent).toNat
    if digits.length ≤ places then
      ⟨signOf negative, ['0'], some (List.replicate (places - digits.length) '0' ++ digits), none⟩
    else
      let before := digits.length - places
      ⟨signOf negative, digits.take before, some (digits.drop before), none⟩

def scientificNumeral (plusExponent negative : Bool) (leading : Int) (digits : List Char) :
    Numeral :=
  let exponentSign :=
    if leading < 0 then some '-' else if plusExponent then some '+' else none
  let exponent : NumeralExponent := ⟨'e', exponentSign, Nat.toDigits 10 leading.natAbs⟩
  ⟨signOf negative, digits.take 1,
    if (digits.drop 1).isEmpty then none else some (digits.drop 1), some exponent⟩

def numeral (layout : Layout) (negative : Bool) (decimal : Decimal) : Numeral :=
  if layout.positional decimal.leadingExponent then
    positionalNumeral layout.wholeFraction negative decimal
  else
    scientificNumeral layout.plusExponent negative decimal.leadingExponent decimal.digits

def text (layout : Layout) (value : Float) : String :=
  match floatParts value with
  | .nan => layout.nan
  | .infinite negative => if negative then layout.negativeInfinite else layout.infinite
  | .finite negative magnitude =>
    String.ofList (layout.numeral negative (.shortest layout.tie magnitude)).text

def plain : Layout :=
  { positional := fun _ => true
    wholeFraction := none
    plusExponent := false
    tie := .up
    nan := "NaN"
    infinite := "inf"
    negativeInfinite := "-inf" }

def scientific : Layout :=
  { plain with positional := fun _ => false }

end Layout

def plainText (value : Float) : String := Layout.plain.text value

/-- The double with exactly `places` digits behind the point, halves of the exact value to even. -/
def fixedText (places : Nat) (value : Float) : String :=
  match floatParts value with
  | .finite negative magnitude =>
    String.ofList (Layout.positionalNumeral none negative (.atPlaces places magnitude)).text
  | _ => plainText value

def significantText (count : Nat) (value : Float) : String :=
  match floatParts value with
  | .finite negative magnitude =>
    let decimal := Decimal.significant count magnitude
    if decimal.coefficient = 0 then
      String.ofList
        (Layout.scientificNumeral false negative 0 (List.replicate (count + 1) '0')).text
    else
      String.ofList
        (Layout.scientificNumeral false negative decimal.leadingExponent decimal.digits).text
  | _ => plainText value

end Gcode
