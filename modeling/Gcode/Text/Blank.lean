/-!
# Blank characters

The characters that carry no meaning in a program line: white space (the Unicode property
`White_Space`) and controls (the general category `Cc`).
-/

namespace Gcode

def isWhiteSpace (c : Char) : Bool :=
  let code := c.toNat
  (0x09 ≤ code && code ≤ 0x0D) || code == 0x20 || code == 0x85 || code == 0xA0 || code == 0x1680 ||
    (0x2000 ≤ code && code ≤ 0x200A) || code == 0x2028 || code == 0x2029 || code == 0x202F ||
    code == 0x205F || code == 0x3000

/-- A control character: the ASCII controls, the delete character and the C1 controls. -/
def isControl (c : Char) : Bool :=
  let code := c.toNat
  code ≤ 0x1F || (0x7F ≤ code && code ≤ 0x9F)

def isBlank (c : Char) : Bool := isWhiteSpace c || isControl c

theorem not_isBlank_of_toNat {c : Char} (visible : 0x21 ≤ c.toNat) (ascii : c.toNat < 0x7F) :
    isBlank c = false := by
  simp only [isBlank, isWhiteSpace, isControl, Bool.or_eq_false_iff, Bool.and_eq_false_iff,
    decide_eq_false_iff_not, beq_eq_false_iff_ne]
  omega

end Gcode
