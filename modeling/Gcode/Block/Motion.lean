import Gcode.Block.Commands
import Gcode.Block.Parameters
import Gcode.Request
import Gcode.Geometry.Arc

/-!
# Motions

The motion of one block, and the requests that carry it out.  Every block that gets this far first
tells the spindle what to do.
-/

namespace Gcode

inductive Motion where
  | idle
  | goHome
  | dwell (milliseconds : UInt32)
  | line (target : Point Float) (feed : Feed)
  | arc (helix : Helix Float) (feed : Feed) (target : Point Float)
  deriving Repr

def blockFeed (state : ModalState) (parameters : Parameters) : Feed :=
  if state.inverseFeedRateMode then .inverseTime parameters.inverseFeedRate
  else .unitsPerSecond state.feedRate

def NoSuchArc.reason (failure : NoSuchArc Float) : String :=
  "no arc of radius " ++ plainText failure.radius ++ " joins points " ++
    fixedText 4 failure.chord ++ " apart"

def planArc (state : ModalState) (parameters : Parameters) (direction : Turn) :
    Except LineError Motion :=
  match arcBetween state.position parameters.target parameters.offset parameters.radius state.plane
      direction with
  | .error failure => .error (.floatingPointError failure.reason)
  | .ok arc => .ok (.arc arc.helix (blockFeed state parameters) parameters.target)

/-- The motion of a block.  Dwelling and homing go before the motion mode. -/
def planBlock (state : ModalState) (action : BlockAction) (parameters : Parameters) :
    Except LineError Motion :=
  match action with
  | .goHome => .ok .goHome
  | .dwell => .ok (.dwell (millisecondsOf parameters.dwell))
  | .motion =>
    match state.motionMode with
    | .cancel => .ok .idle
    | .rapidLinear | .linear => .ok (.line parameters.target (blockFeed state parameters))
    | .arcClockwise => planArc state parameters .clockwise
    | .arcCounterclockwise => planArc state parameters .counterclockwise

def Motion.requests : Motion → List Request
  | idle => []
  | goHome => [.goHome]
  | dwell milliseconds => [.dwell milliseconds]
  | line target feed => [.line target feed]
  | arc helix feed target => [.arc helix feed, .line target feed]

def spindleRequest (state : ModalState) : Request :=
  match state.spindleDirection with
  | .off => .spindleStop
  | direction => .spindleRun direction state.spindleSpeed

def blockRequests (state : ModalState) (motion : Motion) : List Request :=
  spindleRequest state :: motion.requests

end Gcode
