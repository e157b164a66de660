import Gcode.Decimal.Layout
import Gcode.Geometry.Point

/-!
# Points in messages
-/

namespace Gcode

def Point.text (point : Point Float) : String :=
  "(" ++ String.intercalate ", " (point.toList.map (fixedText 3)) ++ ")"

end Gcode
