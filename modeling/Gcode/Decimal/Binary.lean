/-!
# Binary floating-point numbers taken apart

`floatParts` reads the bits of a double as a sign and an exact magnitude
`significand * 2 ^ exponent`.  Everything that needs the exact value (rounding to decimal digits,
truncation to an integer, the ceiling) is integer arithmetic on these parts, so nothing depends on
how an operation of the hardware rounds.  Truncation and ceiling stay within bounds that are given;
of what is no number the truncation is zero, and there is no ceiling.
-/

namespace Gcode

/-- The exact magnitude `significand * 2 ^ exponent`. -/
structure Binary where
  significand : Nat
  exponent : Int
  deriving DecidableEq, Repr

namespace Binary

def numerator (magnitude : Binary) : Nat :=
  magnitude.significand * Nat.pow 2 magnitude.exponent.toNat

def denominator (magnitude : Binary) : Nat :=
  Nat.pow 2 (-magnitude.exponent).toNat

theorem denominator_pos (magnitude : Binary) : 0 < magnitude.denominator :=
  Nat.two_pow_pos _

def floor (magnitude : Binary) : Nat :=
  magnitude.numerator / magnitude.denominator

def ceil (magnitude : Binary) : Nat :=
  (magnitude.numerator + magnitude.denominator - 1) / magnitude.denominator

/-- The number of bits before the binary point, negative where leading bits behind it are zero. -/
def bitLength (magnitude : Binary) : Int :=
  magnitude.significand.log2 + 1 + magnitude.exponent

end Binary

inductive FloatParts where
  | nan
  | infinite (negative : Bool)
  | finite (negative : Bool) (magnitude : Binary)
  deriving DecidableEq, Repr

def floatParts (value : Float) : FloatParts :=
  let bits := value.toBits.toNat
  let negative := decide (0x8000000000000000 ≤ bits)
  let fraction : Nat := bits % 0x10000000000000
  let field : Nat := bits / 0x10000000000000 % 2048
  if field = 2047 then
    if fraction = 0 then .infinite negative else .nan
  else if field = 0 then
    .finite negative ⟨fraction, -1074⟩
  else
    .finite negative ⟨0x10000000000000 + fraction, (field : Int) - 1075⟩

def infinity : Float := Float.ofBits 0x7FF0000000000000

def truncateWithin (low high : Int) (value : Float) : Int :=
  match floatParts value with
  | .nan => 0
  | .infinite negative => if negative then low else high
  | .finite negative magnitude =>
    let whole := (magnitude.floor : Int)
    max low (min high (if negative then -whole else whole))

def ceilAtMost (limit : Nat) (value : Float) : Option Nat :=
  match floatParts value with
  | .nan => none
  | .infinite negative => some (if negative then 0 else limit)
  | .finite negative magnitude => some (if negative then 0 else min limit magnitude.ceil)

end Gcode
