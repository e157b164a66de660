import Gcode.Modal

/-!
# The commands of a block

The words `G`, `M` and `T` of a line set modes as they are read, so a line that fails keeps the
modes set before the failing word.  What they say about this line only is collected in
`BlockModifiers`.
-/

namespace Gcode

inductive BlockAction where
  | motion
  | dwell
  | goHome
  deriving DecidableEq, Repr

structure BlockModifiers where
  action : BlockAction
  absoluteOverride : Bool
  deriving DecidableEq, Repr

def BlockModifiers.plain : BlockModifiers := ⟨.motion, false⟩

structure CommandState where
  state : ModalState
  modifiers : BlockModifiers
  deriving Repr

namespace CommandState

def applyG (current : CommandState) : GCode → CommandState
  | .motion mode => { current with state.motionMode := mode }
  | .dwell => { current with modifiers.action := .dwell }
  | .selectPlane plane => { current with state.plane := plane }
  | .units units => { current with state.units := units }
  | .goHome => { current with modifiers.action := .goHome }
  | .absoluteOverride => { current with modifiers.absoluteOverride := true }
  | .absoluteMode => { current with state.absoluteMode := true }
  | .relativeMode => { current with state.absoluteMode := false }
  | .inverseFeedRateMode => { current with state.inverseFeedRateMode := true }
  | .unitsPerMinuteMode => { current with state.inverseFeedRateMode := false }

def applyM (current : CommandState) : MCode → CommandState
  | .programFlow flow => { current with state.programFlow := flow }
  | .spindle direction => { current with state.spindleDirection := direction }

def apply (current : CommandState) : Command → CommandState
  | .g code => current.applyG code
  | .m code => current.applyM code
  | .tool number => { current with state.tool := number }
  | .parameter => current

def applyWords (current : CommandState) : List PlacedWord → Option LineError × CommandState
  | [] => (none, current)
  | placed :: words =>
    match Command.ofWord placed.word with
    | .error error => (some error, current)
    | .ok command => (current.apply command).applyWords words

end CommandState

/-- Reads the commands of a line: the modes they leave, and its modifiers or its leftmost fault. -/
def readCommands (line : List Char) (state : ModalState) :
    Except LineError BlockModifiers × ModalState :=
  let scan := scanWords line
  let (unsupported, current) := CommandState.applyWords ⟨state, .plain⟩ scan.words
  match unsupported.or scan.failure with
  | some error => (.error error, current.state)
  | none => (.ok current.modifiers, current.state)

end Gcode
