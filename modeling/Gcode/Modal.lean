import Gcode.Code
import Gcode.Reply

/-!
# The modal state

What a machine remembers from one line to the next.
-/

namespace Gcode

/-- Where the modal state starts: rates in millimetres per minute. -/
structure ModalDefaults where
  feedRate : Float
  seekRate : Float
  mmPerInch : Float
  deriving Repr

/-- The modes, the position and the last reply.  Rates are per second. -/
structure ModalState where
  status : StatusCode
  motionMode : MotionMode
  inverseFeedRateMode : Bool
  units : Units
  absoluteMode : Bool
  programFlow : ProgramFlow
  spindleDirection : SpindleDirection
  feedRate : Float
  seekRate : Float
  position : Point Float
  tool : UInt32
  spindleSpeed : Int32
  plane : Plane
  mmPerInch : Float
  deriving Repr

namespace ModalState

def initial (defaults : ModalDefaults) : ModalState :=
  { status := .ok
    motionMode := .rapidLinear
    inverseFeedRateMode := false
    units := .millimeters
    absoluteMode := true
    programFlow := .running
    spindleDirection := .off
    feedRate := perSecond defaults.feedRate
    seekRate := perSecond defaults.seekRate
    position := .replicate 0
    tool := 0
    spindleSpeed := 0
    plane := .xy
    mmPerInch := defaults.mmPerInch }

def inMillimeters (state : ModalState) (value : Float) : Float :=
  state.units.inMillimeters value state.mmPerInch

end ModalState

end Gcode
