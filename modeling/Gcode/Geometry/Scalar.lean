import Gcode.Decimal.Binary

/-!
# Scalars

The arithmetic that arc geometry needs.  `Scalar α` names the operations and promises no law, so
the same formulas run on doubles and can be read over exact numbers.
-/

namespace Gcode

class Scalar (α : Type) extends Add α, Sub α, Mul α, Div α, Neg α where
  ofNat : Nat → α
  pi : α
  abs : α → α
  sqrt : α → α
  hypot : α → α → α
  sin : α → α
  cos : α → α
  atan : α → α
  less : α → α → Bool
  isFinite : α → Bool
  /-- The least natural number not below a value, at most the given limit; nothing for a value that
  is no number. -/
  ceilAtMost : Nat → α → Option Nat

/-! ## Doubles -/

/-- The length of the hypotenuse over two legs.  Legs that are very long or very short are measured
in a power of two, so that no square overflows or vanishes. -/
def hypotenuse (x y : Float) : Float :=
  let width := x.abs
  let height := y.abs
  if width == infinity || height == infinity then infinity
  else
    let longer := if width < height then height else width
    let unit :=
      if longer < Float.ofScientific 1 true 140 then Float.ofBits 0x1A70000000000000
      else if Float.ofScientific 1 false 150 < longer then Float.ofBits 0x6570000000000000
      else 1
    let width := width / unit
    let height := height / unit
    (width * width + height * height).sqrt * unit

instance : Scalar Float where
  ofNat := Float.ofNat
  pi := Float.ofBits 0x400921FB54442D18
  abs := Float.abs
  sqrt := Float.sqrt
  hypot := hypotenuse
  sin := Float.sin
  cos := Float.cos
  atan := Float.atan
  less x y := x < y
  isFinite := Float.isFinite
  ceilAtMost := Gcode.ceilAtMost

end Gcode
