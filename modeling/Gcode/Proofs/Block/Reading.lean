import Gcode.Block.Commands
import Gcode.Proofs.Block.Slots

/-!
# What the words of a block leave

`readCommands` and `readParameters` go through the words one by one.  Here their results are given
at once, from the last word of each slot: `ModalState.afterCommands`, `BlockModifiers.ofWords`,
`ModalState.afterParameters` and `Parameters.ofWords`.  Both readers are proved to compute them by
induction on the words: one more word at the end of the line changes only what its slot says.
-/

namespace Gcode

/-! ## Commands -/

namespace GCode

def motionMode? : GCode → Option MotionMode
  | motion mode => some mode
  | _ => none

def plane? : GCode → Option Plane
  | selectPlane plane => some plane
  | _ => none

def units? : GCode → Option Units
  | .units system => some system
  | _ => none

def absoluteMode? : GCode → Option Bool
  | absoluteMode => some true
  | relativeMode => some false
  | _ => none

def inverseFeedRateMode? : GCode → Option Bool
  | inverseFeedRateMode => some true
  | unitsPerMinuteMode => some false
  | _ => none

def action? : GCode → Option BlockAction
  | dwell => some .dwell
  | goHome => some .goHome
  | _ => none

end GCode

namespace MCode

def programFlow? : MCode → Option ProgramFlow
  | .programFlow flow => some flow
  | _ => none

def spindleDirection? : MCode → Option SpindleDirection
  | spindle direction => some direction
  | _ => none

end MCode

def lastG? (slot : Slot) (words : List Word) : Option GCode :=
  (lastWord? slot words).bind fun word => GCode.ofNumber? (truncatedCode word.value)

def lastM? (slot : Slot) (words : List Word) : Option MCode :=
  (lastWord? slot words).bind fun word => MCode.ofNumber? (truncatedCode word.value)

def ModalState.afterCommands (state : ModalState) (words : List Word) : ModalState :=
  { state with
    motionMode := ((lastG? .motionMode words).bind GCode.motionMode?).getD state.motionMode
    plane := ((lastG? .plane words).bind GCode.plane?).getD state.plane
    units := ((lastG? .units words).bind GCode.units?).getD state.units
    absoluteMode := ((lastG? .distance words).bind GCode.absoluteMode?).getD state.absoluteMode
    inverseFeedRateMode :=
      ((lastG? .feedMode words).bind GCode.inverseFeedRateMode?).getD state.inverseFeedRateMode
    programFlow := ((lastM? .programFlow words).bind MCode.programFlow?).getD state.programFlow
    spindleDirection :=
      ((lastM? .spindle words).bind MCode.spindleDirection?).getD state.spindleDirection
    tool := ((lastWord? .tool words).map fun word => toolOf word.value).getD state.tool }

def BlockModifiers.ofWords (words : List Word) : BlockModifiers :=
  { action := ((lastG? .action words).bind GCode.action?).getD .motion
    absoluteOverride := (lastWord? .absoluteOverride words).isSome }

def CommandState.ofWords (state : ModalState) (words : List Word) : CommandState :=
  ⟨state.afterCommands words, .ofWords words⟩

theorem lastG?_concat (slot : Slot) (words : List Word) (word : Word) :
    lastG? slot (words ++ [word]) =
      if Slot.ofWord? word = some slot then GCode.ofNumber? (truncatedCode word.value)
      else lastG? slot words := by
  rw [lastG?, lastWord?_concat]
  split_ifs <;> rfl

theorem lastM?_concat (slot : Slot) (words : List Word) (word : Word) :
    lastM? slot (words ++ [word]) =
      if Slot.ofWord? word = some slot then MCode.ofNumber? (truncatedCode word.value)
      else lastM? slot words := by
  rw [lastM?, lastWord?_concat]
  split_ifs <;> rfl

theorem CommandState.apply_ofWords {state : ModalState} {words : List Word} {word : Word}
    {command : Command} (h : Command.ofWord word = .ok command) :
    (CommandState.ofWords state words).apply command = .ofWords state (words ++ [word]) := by
  simp only [CommandState.ofWords, ModalState.afterCommands, BlockModifiers.ofWords,
    lastG?_concat, lastM?_concat, lastWord?_concat]
  rcases Command.ofWord_cases h with ⟨code, hcode, rfl, hslot⟩ | ⟨code, hcode, rfl, hslot⟩ |
    ⟨rfl, hslot⟩ | ⟨rfl, hslot⟩
  · cases code <;>
      simp only [hslot, hcode, GCode.slot, Option.some.injEq, reduceCtorEq, if_true, if_false] <;>
      rfl
  · cases code <;>
      simp only [hslot, hcode, MCode.slot, Option.some.injEq, reduceCtorEq, if_true, if_false] <;>
      rfl
  · simp only [hslot, Option.some.injEq, reduceCtorEq, if_true, if_false]
    rfl
  · have hother : ∀ slot, slot.isCommand = true → ¬ Slot.ofWord? word = some slot := by
      intro slot hcommand hsame
      rw [hslot slot hsame] at hcommand
      contradiction
    simp (disch := decide) only [CommandState.apply, if_neg, hother]

@[simp] theorem CommandState.ofWords_nil (state : ModalState) :
    CommandState.ofWords state [] = ⟨state, .plain⟩ := rfl

theorem CommandState.applyWords_ofWords (state : ModalState) (front : List Word)
    (words : List PlacedWord) :
    (CommandState.ofWords state front).applyWords words =
      ((words.find? fun placed => !placed.word.isSupported).map
          fun placed => .unsupportedWord placed.word.letter placed.word.value,
        .ofWords state (front ++ (words.map PlacedWord.word).takeWhile Word.isSupported)) := by
  induction words generalizing front with
  | nil => simp [CommandState.applyWords]
  | cons placed words ih =>
      simp only [CommandState.applyWords]
      by_cases hsupported : placed.word.isSupported = true
      · obtain ⟨command, hcommand⟩ := Command.ofWord_of_isSupported hsupported
        simp only [hcommand]
        rw [CommandState.apply_ofWords hcommand, ih]
        simp [hsupported]
      · simp [Command.ofWord_of_not_isSupported hsupported, hsupported]

theorem readCommands_eq (text : List Char) (state : ModalState) :
    readCommands text state =
      (match leftmostFault? text with
        | some (column, fault) => .error (fault.error column)
        | none => .ok (.ofWords ((wordsOf text).takeWhile Word.isSupported)),
        state.afterCommands ((wordsOf text).takeWhile Word.isSupported)) := by
  have happly := CommandState.applyWords_ofWords state [] (scanWords text).words
  have herror := leftmostFaultFrom_error 0 text
  rw [CommandState.ofWords_nil] at happly
  simp only [readCommands, happly, leftmostFault?]
  rw [scanWords, herror]
  cases leftmostFaultFrom 0 text <;> rfl

theorem readCommands_of_fault {text : List Char} {column : Nat} {fault : WordFault}
    (h : leftmostFault? text = some (column, fault)) (state : ModalState) :
    readCommands text state = (.error (fault.error column),
      state.afterCommands ((wordsOf text).takeWhile Word.isSupported)) := by
  rw [readCommands_eq, h]

theorem readCommands_of_faultless {text : List Char} (h : Faultless text) (state : ModalState) :
    readCommands text state =
      (.ok (.ofWords (wordsOf text)), state.afterCommands (wordsOf text)) := by
  rw [readCommands_eq, leftmostFault?_eq_none_iff.2 h, h.takeWhile_isSupported]

/-! ## Parameters -/

def ModalState.coordinateAfter (state : ModalState) (absolute : Bool) (words : List Word)
    (axis : Axis) : Float :=
  match lastWord? (.coordinate axis) words with
  | none => state.position.get axis
  | some word =>
    if absolute then state.inMillimeters word.value
    else state.position.get axis + state.inMillimeters word.value

def ModalState.afterParameters (state : ModalState) (words : List Word) : ModalState :=
  { state with
    feedRate :=
      if state.inverseFeedRateMode then state.feedRate
      else ((lastWord? .feed words).map
        fun word => perSecond (state.inMillimeters word.value)).getD state.feedRate
    spindleSpeed :=
      ((lastWord? .spindleSpeed words).map fun word => speedOf word.value).getD state.spindleSpeed }

def ModalState.lastLength? (state : ModalState) (slot : Slot) (words : List Word) : Option Float :=
  (lastWord? slot words).map fun word => state.inMillimeters word.value

theorem ModalState.coordinateAfter_eq (state : ModalState) (absolute : Bool) (words : List Word)
    (axis : Axis) :
    state.coordinateAfter absolute words axis =
      ((state.lastLength? (.coordinate axis) words).map fun length =>
        if absolute then length else state.position.get axis + length).getD
          (state.position.get axis) := by
  rw [coordinateAfter, lastLength?]
  cases lastWord? (.coordinate axis) words <;> rfl

theorem ModalState.afterParameters_eq (state : ModalState) (words : List Word) :
    state.afterParameters words =
      { state with
        feedRate :=
          if state.inverseFeedRateMode then state.feedRate
          else ((state.lastLength? .feed words).map perSecond).getD state.feedRate
        spindleSpeed :=
          ((lastWord? .spindleSpeed words).map fun word => speedOf word.value).getD
            state.spindleSpeed } := by
  rw [afterParameters, lastLength?, Option.map_map]
  rfl

def Parameters.ofWords (state : ModalState) (absolute : Bool) (words : List Word) : Parameters :=
  { target :=
      ⟨state.coordinateAfter absolute words .x, state.coordinateAfter absolute words .y,
        state.coordinateAfter absolute words .z⟩
    offset :=
      ⟨(state.lastLength? (.centre .x) words).getD 0, (state.lastLength? (.centre .y) words).getD 0,
        (state.lastLength? (.centre .z) words).getD 0⟩
    radius := state.lastLength? .radius words
    dwell := ((lastWord? .dwell words).map Word.value).getD 0
    inverseFeedRate :=
      if state.inverseFeedRateMode then state.lastLength? .feed words else none }

@[simp] theorem Parameters.target_ofWords (state : ModalState) (absolute : Bool)
    (words : List Word) (axis : Axis) :
    (Parameters.ofWords state absolute words).target.get axis =
      state.coordinateAfter absolute words axis := by
  cases axis <;> rfl

def ParameterState.ofWords (state : ModalState) (absolute : Bool) (words : List Word) :
    ParameterState :=
  ⟨state.afterParameters words, .ofWords state absolute words⟩

theorem ModalState.coordinateAfter_concat (state : ModalState) (absolute : Bool)
    (words : List Word) (word : Word) (axis : Axis) :
    state.coordinateAfter absolute (words ++ [word]) axis =
      if Slot.ofWord? word = some (.coordinate axis) then
        if absolute then state.inMillimeters word.value
        else state.position.get axis + state.inMillimeters word.value
      else state.coordinateAfter absolute words axis := by
  unfold ModalState.coordinateAfter
  rw [lastWord?_concat]
  by_cases hslot : Slot.ofWord? word = some (.coordinate axis)
  · rw [if_pos hslot, if_pos hslot]
  · rw [if_neg hslot, if_neg hslot]

theorem ModalState.lastLength?_concat (state : ModalState) (slot : Slot) (words : List Word)
    (word : Word) :
    state.lastLength? slot (words ++ [word]) =
      if Slot.ofWord? word = some slot then some (state.inMillimeters word.value)
      else state.lastLength? slot words := by
  rw [ModalState.lastLength?, lastWord?_concat]
  split_ifs <;> rfl

theorem ParameterState.applyWord_ofWords (state : ModalState) (absolute : Bool)
    (words : List Word) (placed : PlacedWord) :
    (ParameterState.ofWords state absolute words).applyWord absolute placed =
      .ofWords state absolute (words ++ [placed.word]) := by
  simp only [ParameterState.applyWord, ParameterState.ofWords, ModalState.afterParameters,
    Parameters.ofWords, ModalState.coordinateAfter_concat, ModalState.lastLength?_concat,
    lastWord?_concat]
  cases hparameter : Parameter.ofWord? placed.word with
  | none =>
      have hother : ∀ slot, slot.isCommand = false → ¬ Slot.ofWord? placed.word = some slot := by
        intro slot hcommand hslot
        rw [Slot.isCommand_of_not_parameter hparameter hslot] at hcommand
        contradiction
      simp (disch := decide) only [if_neg, hother]
  | some parameter =>
      obtain ⟨hslot, hvalue⟩ := Parameter.slot_of_ofWord? hparameter
      cases parameter with
      | feed value =>
          by_cases hinverse : state.inverseFeedRateMode = true <;>
            simp_all [ParameterState.apply, Parameter.slot, Parameter.value,
              ModalState.inMillimeters]
      | dwell value | radius value | spindleSpeed value =>
          simp_all [ParameterState.apply, Parameter.slot, Parameter.value, ModalState.inMillimeters]
      | arcOffset axis value =>
          cases axis <;>
            simp_all [ParameterState.apply, Parameter.slot, Parameter.value,
              ModalState.inMillimeters, Point.set]
      | coordinate axis value =>
          cases axis <;> cases absolute <;>
            simp_all [ParameterState.apply, Parameter.slot, Parameter.value,
              ModalState.inMillimeters, Point.set, Point.get]

theorem ParameterState.foldl_ofWords (state : ModalState) (absolute : Bool) (front : List Word)
    (words : List PlacedWord) :
    words.foldl (ParameterState.applyWord absolute) (.ofWords state absolute front) =
      .ofWords state absolute (front ++ words.map PlacedWord.word) := by
  induction words generalizing front with
  | nil => simp
  | cons placed words ih =>
      rw [List.foldl_cons, ParameterState.applyWord_ofWords, ih]
      simp

theorem ParameterState.ofWords_nil (state : ModalState) (absolute : Bool) :
    ParameterState.ofWords state absolute [] = ⟨state, .stayingAt state.position⟩ := by
  simp [ParameterState.ofWords, ModalState.afterParameters, Parameters.ofWords,
    Parameters.stayingAt, ModalState.coordinateAfter, ModalState.lastLength?, Point.replicate,
    Point.get]

theorem readParameters_eq (text : List Char) (state : ModalState) (absoluteOverride : Bool) :
    readParameters text state absoluteOverride =
      (match (scanWords text).failure with
        | some error => .error error
        | none =>
          .ok (.ofWords state (state.absoluteMode || absoluteOverride) (wordsOf text)),
        state.afterParameters (wordsOf text)) := by
  have hfold := ParameterState.foldl_ofWords state (state.absoluteMode || absoluteOverride) []
    (scanWords text).words
  rw [ParameterState.ofWords_nil, List.nil_append] at hfold
  simp only [readParameters, hfold]
  cases (scanWords text).failure <;> rfl

end Gcode
