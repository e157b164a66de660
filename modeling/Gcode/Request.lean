import Gcode.Code
import Gcode.Geometry.Helix

/-!
# Requests

What an interpreted line asks the machine to do.  The parts of the machine share one `RequestLog`,
which keeps what was asked for until it is taken out.
-/

namespace Gcode

inductive Feed where
  | unitsPerSecond (rate : Float)
  | inverseTime (time : Option Float)
  deriving BEq, Repr

namespace Feed

/-- The rate as one number; a missing time is `-1`. -/
def rate : Feed → Float
  | unitsPerSecond rate => rate
  | inverseTime time => time.getD (-1)

def isInverseTime : Feed → Bool
  | unitsPerSecond _ => false
  | inverseTime _ => true

end Feed

inductive Request where
  | line (target : Point Float) (feed : Feed)
  | arc (helix : Helix Float) (feed : Feed)
  | dwell (milliseconds : UInt32)
  | goHome
  | spindleRun (direction : SpindleDirection) (speed : Int32)
  | spindleStop
  deriving BEq, Repr

namespace Request

def isSpindle : Request → Bool
  | spindleRun _ _ => true
  | spindleStop => true
  | _ => false

end Request

structure RequestLog where
  requests : List Request
  deriving BEq, Repr

namespace RequestLog

def empty : RequestLog := ⟨[]⟩

def record (log : RequestLog) (request : Request) : RequestLog := ⟨log.requests ++ [request]⟩

def recordAll (log : RequestLog) (requests : List Request) : RequestLog :=
  requests.foldl record log

def take (log : RequestLog) : List Request × RequestLog := (log.requests, empty)

@[simp] theorem requests_recordAll (log : RequestLog) (requests : List Request) :
    (log.recordAll requests).requests = log.requests ++ requests := by
  induction requests generalizing log with
  | nil => exact (List.append_nil _).symm
  | cons request requests ih => exact (ih _).trans (List.append_assoc ..)

end RequestLog

end Gcode
