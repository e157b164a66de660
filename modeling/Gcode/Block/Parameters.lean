import Gcode.Modal

/-!
# The parameters of a block

The words that carry a position or another parameter are read under the modes that the commands of
the whole line have set.  Lengths (`F I J K R X Y Z`) are converted to millimetres; `P` and `S` are
taken as written.
-/

namespace Gcode

inductive Parameter where
  | feed (value : Float)
  | arcOffset (axis : Axis) (value : Float)
  | dwell (seconds : Float)
  | radius (value : Float)
  | spindleSpeed (value : Float)
  | coordinate (axis : Axis) (value : Float)
  deriving Repr

def Parameter.ofWord? (word : Word) : Option Parameter :=
  match word.letter with
  | 'F' => some (.feed word.value)
  | 'I' => some (.arcOffset .x word.value)
  | 'J' => some (.arcOffset .y word.value)
  | 'K' => some (.arcOffset .z word.value)
  | 'P' => some (.dwell word.value)
  | 'R' => some (.radius word.value)
  | 'S' => some (.spindleSpeed word.value)
  | 'X' => some (.coordinate .x word.value)
  | 'Y' => some (.coordinate .y word.value)
  | 'Z' => some (.coordinate .z word.value)
  | _ => none

structure Parameters where
  target : Point Float
  offset : Point Float
  radius : Option Float
  /-- Seconds. -/
  dwell : Float
  inverseFeedRate : Option Float
  deriving Repr

def Parameters.stayingAt (position : Point Float) : Parameters :=
  { target := position
    offset := .replicate 0
    radius := none
    dwell := 0
    inverseFeedRate := none }

structure ParameterState where
  state : ModalState
  parameters : Parameters
  deriving Repr

namespace ParameterState

/-- Applies one parameter.  A coordinate counts from the position at the start of the line unless it
is absolute. -/
def apply (absolute : Bool) (current : ParameterState) : Parameter → ParameterState
  | .feed value =>
    let rate := current.state.inMillimeters value
    if current.state.inverseFeedRateMode then
      { current with parameters.inverseFeedRate := some rate }
    else { current with state.feedRate := perSecond rate }
  | .arcOffset axis value =>
    { current with
      parameters.offset := current.parameters.offset.set axis (current.state.inMillimeters value) }
  | .dwell seconds => { current with parameters.dwell := seconds }
  | .radius value =>
    { current with parameters.radius := some (current.state.inMillimeters value) }
  | .spindleSpeed value => { current with state.spindleSpeed := speedOf value }
  | .coordinate axis value =>
    let length := current.state.inMillimeters value
    let place := if absolute then length else current.state.position.get axis + length
    { current with parameters.target := current.parameters.target.set axis place }

def applyWord (absolute : Bool) (current : ParameterState) (placed : PlacedWord) :
    ParameterState :=
  match Parameter.ofWord? placed.word with
  | some parameter => current.apply absolute parameter
  | none => current

end ParameterState

/-- Reads the parameters of a line: the state they leave, and the parameters or the fault at which
the words end. -/
def readParameters (line : List Char) (state : ModalState) (absoluteOverride : Bool) :
    Except LineError Parameters × ModalState :=
  let scan := scanWords line
  let absolute := state.absoluteMode || absoluteOverride
  let current := scan.words.foldl (ParameterState.applyWord absolute)
    ⟨state, .stayingAt state.position⟩
  match scan.failure with
  | some error => (.error error, current.state)
  | none => (.ok current.parameters, current.state)

end Gcode
