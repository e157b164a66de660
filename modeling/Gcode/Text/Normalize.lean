import Gcode.Text.Blank

/-!
# Normalised lines

A raw line is normalised before it is executed: blank characters are dropped, and ASCII letters
become upper case.  Comments are kept, as what starts with `(` is a line of its own.
-/

namespace Gcode

def normalized (raw : List Char) : List Char :=
  (raw.filter fun c => !isBlank c).map Char.toUpper

theorem normalized_append (first second : List Char) :
    normalized (first ++ second) = normalized first ++ normalized second := by
  simp [normalized]

end Gcode
