/-!
# Units

Lengths are kept in millimetres; a program may be written in inches.
-/

namespace Gcode

inductive Units where
  | millimeters
  | inches
  deriving DecidableEq, Repr

namespace Units

def inMillimeters (units : Units) (value mmPerInch : Float) : Float :=
  match units with
  | millimeters => value
  | inches => value * mmPerInch

def name : Units → String
  | millimeters => "Millimeters"
  | inches => "Inches"

def label : Units → String
  | millimeters => "mm"
  | inches => "in"

def documentName : Units → String
  | millimeters => "millimeters"
  | inches => "inches"

def ofName? (name : String) : Option Units :=
  let lower := String.ofList (name.toList.map Char.toLower)
  if ["millimeters", "mm", "metric"].contains lower then some millimeters
  else if ["inches", "inch", "in", "imperial"].contains lower then some inches
  else none

def unknownMessage (name : String) : String := "Unknown unit system: " ++ name

end Units

def standardMmPerInch : Float := 25.4

def perSecond (rate : Float) : Float := rate / 60

end Gcode
