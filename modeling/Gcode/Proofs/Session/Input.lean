import Gcode.Proofs.Text.Utf8
import Gcode.Text.Lines

/-!
# The lines of an input

An input in UTF-8 is cut into lines in UTF-8, as no other character has the byte of a line feed in
it.  Where a line ends, an input may be cut in two.
-/

namespace Gcode

/-! ## Line ends -/

/-- Whether the first of two parts ends where a line of both together does. -/
def EndsLine (before after : List UInt8) : Prop :=
  before = [] ∨ before.getLast? = some 10 ∨ after = []

end Gcode
