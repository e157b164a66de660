import Gcode.Word
import Gcode.Units
import Gcode.Geometry.Point

/-!
# Codes

What the numbers of the letters `G`, `M`, `T`, `S` and `P` mean.  All are truncated towards zero,
and saturate: a `G` or `M` in 64 bits, a tool or a time in milliseconds in 32 bits without a sign,
and a speed in 32 bits.
-/

namespace Gcode

inductive MotionMode where
  | rapidLinear
  | linear
  | arcClockwise
  | arcCounterclockwise
  | cancel
  deriving DecidableEq, Repr

namespace MotionMode

def name : MotionMode → String
  | rapidLinear => "RapidLinear"
  | linear => "Linear"
  | arcClockwise => "ArcCw"
  | arcCounterclockwise => "ArcCcw"
  | cancel => "Cancel"

def description : MotionMode → String
  | rapidLinear => "Rapid positioning (G0)"
  | linear => "Linear interpolation (G1)"
  | arcClockwise => "Clockwise arc (G2)"
  | arcCounterclockwise => "Counter-clockwise arc (G3)"
  | cancel => "Motion cancelled (G80)"

end MotionMode

inductive ProgramFlow where
  | running
  | paused
  | completed
  deriving DecidableEq, Repr

def ProgramFlow.name : ProgramFlow → String
  | .running => "Running"
  | .paused => "Paused"
  | .completed => "Completed"

inductive SpindleDirection where
  | off
  | clockwise
  | counterclockwise
  deriving DecidableEq, Repr

namespace SpindleDirection

def all : List SpindleDirection := [off, clockwise, counterclockwise]

def name : SpindleDirection → String
  | off => "Off"
  | clockwise => "Cw"
  | counterclockwise => "Ccw"

end SpindleDirection

inductive GCode where
  | motion (mode : MotionMode)
  | dwell
  | selectPlane (plane : Plane)
  | units (units : Units)
  | goHome
  | absoluteOverride
  | absoluteMode
  | relativeMode
  | inverseFeedRateMode
  | unitsPerMinuteMode
  deriving DecidableEq, Repr

def GCode.ofNumber? : Int → Option GCode
  | 0 => some (.motion .rapidLinear)
  | 1 => some (.motion .linear)
  | 2 => some (.motion .arcClockwise)
  | 3 => some (.motion .arcCounterclockwise)
  | 4 => some .dwell
  | 17 => some (.selectPlane .xy)
  | 18 => some (.selectPlane .xz)
  | 19 => some (.selectPlane .yz)
  | 20 => some (.units .inches)
  | 21 => some (.units .millimeters)
  | 28 => some .goHome
  | 30 => some .goHome
  | 53 => some .absoluteOverride
  | 80 => some (.motion .cancel)
  | 90 => some .absoluteMode
  | 91 => some .relativeMode
  | 93 => some .inverseFeedRateMode
  | 94 => some .unitsPerMinuteMode
  | _ => none

inductive MCode where
  | programFlow (flow : ProgramFlow)
  | spindle (direction : SpindleDirection)
  deriving DecidableEq, Repr

def MCode.ofNumber? : Int → Option MCode
  | 0 => some (.programFlow .paused)
  | 1 => some (.programFlow .paused)
  | 2 => some (.programFlow .completed)
  | 30 => some (.programFlow .completed)
  | 60 => some (.programFlow .completed)
  | 3 => some (.spindle .clockwise)
  | 4 => some (.spindle .counterclockwise)
  | 5 => some (.spindle .off)
  | _ => none

/-- The number of a `G` or `M` word: truncated towards zero, saturating in 64 bits. -/
def truncatedCode (value : Float) : Int :=
  truncateWithin (-0x8000000000000000) 0x7FFFFFFFFFFFFFFF value

def toolOf (value : Float) : UInt32 :=
  UInt32.ofNat (truncateWithin 0 0xFFFFFFFF value).toNat

def speedOf (value : Float) : Int32 :=
  Int32.ofInt (truncateWithin (-0x80000000) 0x7FFFFFFF value)

def millisecondsOf (seconds : Float) : UInt32 :=
  UInt32.ofNat (truncateWithin 0 0xFFFFFFFF (seconds * 1000)).toNat

inductive Command where
  | g (code : GCode)
  | m (code : MCode)
  | tool (number : UInt32)
  | parameter
  deriving DecidableEq, Repr

def Command.ofWord (word : Word) : Except LineError Command :=
  if word.letter = 'G' then
    match GCode.ofNumber? (truncatedCode word.value) with
    | some code => .ok (.g code)
    | none => .error (.unsupportedWord word.letter word.value)
  else if word.letter = 'M' then
    match MCode.ofNumber? (truncatedCode word.value) with
    | some code => .ok (.m code)
    | none => .error (.unsupportedWord word.letter word.value)
  else if word.letter = 'T' then .ok (.tool (toolOf word.value))
  else .ok .parameter

end Gcode
