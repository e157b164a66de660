import Gcode.Proofs.Geometry.Levelling
import Gcode.Proofs.Program.Rewriting
import Gcode.Settings.Config
import Gcode.Settings.Live

/-!
# Programs in any plane

What a program does in a plane is what it does in the plane `XY` once its letters and the position
are levelled with the plane.  Nothing but the names of the axes tells the planes apart: the roles of
the axes are taken from the plane in every offset, solved centre, bearing and depth.
-/

namespace Gcode

/-! ## Words -/

def Axis.centreLetter : Axis → Char
  | x => 'I'
  | y => 'J'
  | z => 'K'

def Plane.levelledLetter (plane : Plane) : Char → Char
  | 'X' => (plane.role .x).letter
  | 'Y' => (plane.role .y).letter
  | 'Z' => (plane.role .z).letter
  | 'I' => (plane.role .x).centreLetter
  | 'J' => (plane.role .y).centreLetter
  | 'K' => (plane.role .z).centreLetter
  | letter => letter

def Word.levelled (plane : Plane) (word : Word) : Word :=
  { word with letter := plane.levelledLetter word.letter }

def Slot.levelled (plane : Plane) : Slot → Slot
  | coordinate axis => coordinate (plane.role axis)
  | centre axis => centre (plane.role axis)
  | other => other

theorem Slot.ofWord?_letter (axis : Axis) (value : Float) :
    ofWord? ⟨axis.letter, value⟩ = some (coordinate axis) := by
  cases axis <;> rfl

theorem Slot.ofWord?_centreLetter (axis : Axis) (value : Float) :
    ofWord? ⟨axis.centreLetter, value⟩ = some (centre axis) := by
  cases axis <;> rfl

theorem Slot.map_levelled_ofG? (plane : Plane) (number : Int) :
    (ofG? number).map (Slot.levelled plane) = ofG? number := by
  unfold ofG?
  split <;> rfl

theorem Slot.map_levelled_ofM? (plane : Plane) (number : Int) :
    (ofM? number).map (Slot.levelled plane) = ofM? number := by
  unfold ofM?
  split <;> rfl

theorem Slot.ofWord?_levelled (plane : Plane) (word : Word) :
    ofWord? (word.levelled plane) = (ofWord? word).map (Slot.levelled plane) := by
  obtain ⟨letter, value⟩ := word
  simp only [Word.levelled, Plane.levelledLetter]
  split
  · exact ofWord?_letter ..
  · exact ofWord?_letter ..
  · exact ofWord?_letter ..
  · exact ofWord?_centreLetter ..
  · exact ofWord?_centreLetter ..
  · exact ofWord?_centreLetter ..
  · simp only [ofWord?]
    split <;> simp_all [map_levelled_ofG?, map_levelled_ofM?] <;> rfl

theorem Word.not_isCommand_levelled {word : Word} (h : word.isCommand = false) (plane : Plane) :
    (word.levelled plane).isCommand = false := by
  unfold levelled Plane.levelledLetter
  split
  · cases plane.role .x <;> rfl
  · cases plane.role .y <;> rfl
  · cases plane.role .z <;> rfl
  · cases plane.role .x <;> rfl
  · cases plane.role .y <;> rfl
  · cases plane.role .z <;> rfl
  · exact h

theorem Word.levelled_of_isCommand {word : Word} (h : word.isCommand = true) (plane : Plane) :
    word.levelled plane = word := by
  obtain ⟨letter, value⟩ := word
  simp only [isCommand, Bool.or_eq_true, beq_iff_eq] at h
  rcases h with (rfl | rfl) | rfl <;> rfl

theorem Slot.levelled_injective {plane : Plane} (distinct : plane.axes.Nodup) :
    Function.Injective (Slot.levelled plane) := by
  intro left right same
  cases left <;> cases right <;>
    simp_all [levelled, (Plane.role_injective distinct).eq_iff]

theorem rewritesParameters_levelled {plane : Plane} (distinct : plane.axes.Nodup) :
    RewritesParameters (Word.levelled plane) (Slot.levelled plane) where
  ofWord? := Slot.ofWord?_levelled plane
  injective := Slot.levelled_injective distinct
  command _ h := Word.levelled_of_isCommand h plane
  parameter _ h := Word.not_isCommand_levelled h plane

/-! ## States, parameters and motions -/

namespace ModalState

/-- The state of the same machine with its plane called `XY`. -/
def levelled (state : ModalState) : ModalState :=
  { state with plane := .xy, position := state.position.levelled state.plane }

variable (state : ModalState) {words : List Word}

theorem plane_afterCommands (unset : ∀ word ∈ words, Slot.ofWord? word ≠ some .plane) :
    (state.afterCommands words).plane = state.plane := by
  simp [afterCommands, lastG?, lastWord?_eq_none_iff.2 unset]

theorem afterCommands_levelled (unset : ∀ word ∈ words, Slot.ofWord? word ≠ some .plane) :
    state.levelled.afterCommands words = (state.afterCommands words).levelled := by
  simp [afterCommands, levelled, lastG?, lastWord?_eq_none_iff.2 unset]

end ModalState

section

variable {plane : Plane} (distinct : plane.axes.Nodup) (state : ModalState) (words : List Word)

include distinct

theorem lastWord?_levelled (slot : Slot) :
    lastWord? (slot.levelled plane) (words.map (Word.levelled plane)) =
      (lastWord? slot words).map (Word.levelled plane) :=
  (rewritesParameters_levelled distinct).lastWord?_map slot words

theorem ModalState.lastLength?_levelled (slot : Slot) :
    state.levelled.lastLength? (slot.levelled plane) (words.map (Word.levelled plane)) =
      state.lastLength? slot words := by
  rw [lastLength?, lastWord?_levelled distinct, Option.map_map]
  rfl

theorem ModalState.afterParameters_levelled :
    state.levelled.afterParameters (words.map (Word.levelled plane)) =
      (state.afterParameters words).levelled := by
  have hfeed := state.lastLength?_levelled distinct words .feed
  have hspeed := lastWord?_levelled distinct words .spindleSpeed
  simp only [Slot.levelled] at hfeed hspeed
  rw [afterParameters_eq, afterParameters_eq, hfeed, hspeed, Option.map_map]
  rfl

theorem ModalState.coordinateAfter_levelled (hplane : state.plane = plane) (absolute : Bool)
    (axis : Axis) :
    state.levelled.coordinateAfter absolute (words.map (Word.levelled plane)) axis =
      state.coordinateAfter absolute words (plane.axis axis) := by
  have hlength := state.lastLength?_levelled distinct words (.coordinate (plane.axis axis))
  have hposition : state.levelled.position.get axis = state.position.get (plane.axis axis) := by
    rw [← hplane]
    exact Point.get_levelled ..
  rw [Slot.levelled, Plane.role_axis distinct] at hlength
  rw [coordinateAfter_eq, coordinateAfter_eq, hlength, hposition]

end

def Parameters.levelled (plane : Plane) (parameters : Parameters) : Parameters :=
  { parameters with
    target := parameters.target.levelled plane
    offset := parameters.offset.levelled plane }

theorem Parameters.offset_ofWords (state : ModalState) (absolute : Bool) (words : List Word)
    (axis : Axis) :
    (Parameters.ofWords state absolute words).offset.get axis =
      (state.lastLength? (.centre axis) words).getD 0 := by
  cases axis <;> rfl

theorem Parameters.ofWords_levelled {plane : Plane} (distinct : plane.axes.Nodup)
    {state : ModalState} (hplane : state.plane = plane) (absolute : Bool) (words : List Word) :
    ofWords state.levelled absolute (words.map (Word.levelled plane)) =
      (ofWords state absolute words).levelled plane := by
  -- an axis of `XY` gets what the axis with its role gets from the words as they were
  have htarget : (ofWords state.levelled absolute (words.map (Word.levelled plane))).target =
      (ofWords state absolute words).target.levelled plane := by
    refine Point.ext_get fun axis => ?_
    rw [target_ofWords, Point.get_levelled, target_ofWords,
      state.coordinateAfter_levelled distinct words hplane]
  have hoffset : (ofWords state.levelled absolute (words.map (Word.levelled plane))).offset =
      (ofWords state absolute words).offset.levelled plane := by
    refine Point.ext_get fun axis => ?_
    have hlength := state.lastLength?_levelled distinct words (.centre (plane.axis axis))
    rw [Slot.levelled, Plane.role_axis distinct] at hlength
    rw [offset_ofWords, Point.get_levelled, offset_ofWords, hlength]
  have hradius : state.levelled.lastLength? .radius (words.map (Word.levelled plane)) =
      state.lastLength? .radius words := state.lastLength?_levelled distinct words .radius
  have hfeed : state.levelled.lastLength? .feed (words.map (Word.levelled plane)) =
      state.lastLength? .feed words := state.lastLength?_levelled distinct words .feed
  have hdwell : lastWord? .dwell (words.map (Word.levelled plane)) =
      (lastWord? .dwell words).map (Word.levelled plane) :=
    lastWord?_levelled distinct words .dwell
  simp only [ofWords, levelled, mk.injEq] at htarget hoffset ⊢
  refine ⟨htarget, hoffset, hradius, ?_, ?_⟩
  · rw [hdwell, Option.map_map]
    rfl
  · rw [hfeed]
    rfl

def Motion.levelled (plane : Plane) : Motion → Motion
  | line target feed => line (target.levelled plane) feed
  | arc helix feed target => arc helix.levelled feed (target.levelled plane)
  | other => other

def Request.levelled (plane : Plane) : Request → Request
  | line target feed => line (target.levelled plane) feed
  | arc helix feed => arc helix.levelled feed
  | other => other

theorem blockRequests_levelled (state : ModalState) (motion : Motion) :
    blockRequests state.levelled (motion.levelled state.plane) =
      (blockRequests state motion).map (Request.levelled state.plane) := by
  have hspindle : spindleRequest state.levelled =
      (spindleRequest state).levelled state.plane := by
    simp only [spindleRequest, ModalState.levelled]
    split <;> rfl
  rw [blockRequests, hspindle]
  cases motion <;> rfl

theorem planArc_levelled {state : ModalState} (distinct : state.plane.axes.Nodup)
    (parameters : Parameters) (direction : Turn) :
    planArc state.levelled (parameters.levelled state.plane) direction =
      (planArc state parameters direction).map (Motion.levelled state.plane) := by
  have harc := arcBetween_levelled distinct state.position parameters.target parameters.offset
    parameters.radius direction
  simp only [planArc, ModalState.levelled, Parameters.levelled, harc]
  cases arcBetween state.position parameters.target parameters.offset parameters.radius
    state.plane direction <;> rfl

theorem planBlock_levelled {state : ModalState} (distinct : state.plane.axes.Nodup)
    (action : BlockAction) (parameters : Parameters) :
    planBlock state.levelled action (parameters.levelled state.plane) =
      (planBlock state action parameters).map (Motion.levelled state.plane) := by
  have hmode : state.levelled.motionMode = state.motionMode := rfl
  unfold planBlock
  rw [hmode]
  cases action with
  | dwell | goHome => rfl
  | motion =>
      cases state.motionMode with
      | cancel | rapidLinear | linear => rfl
      | arcClockwise | arcCounterclockwise => exact planArc_levelled distinct parameters _

/-! ## Blocks -/

section

variable {state : ModalState} {words : List Word} (distinct : state.plane.axes.Nodup)
  (unset : ∀ word ∈ words, Slot.ofWord? word ≠ some .plane)

include distinct unset

theorem ModalState.afterWords_levelled :
    state.levelled.afterWords (words.map (Word.levelled state.plane)) =
      (state.afterWords words).levelled := by
  rw [afterWords, (rewritesParameters_levelled distinct).afterCommands,
    state.afterCommands_levelled unset, afterParameters_levelled distinct]
  rfl

theorem Parameters.ofBlock_levelled :
    ofBlock state.levelled (words.map (Word.levelled state.plane)) =
      (ofBlock state words).levelled state.plane := by
  have hplane := state.plane_afterCommands unset
  rw [ofBlock, (rewritesParameters_levelled distinct).afterCommands,
    state.afterCommands_levelled unset, (rewritesParameters_levelled distinct).modifiers,
    ofWords_levelled distinct hplane]
  rfl

theorem plannedMotion_levelled :
    plannedMotion state.levelled (words.map (Word.levelled state.plane)) =
      (plannedMotion state words).map (Motion.levelled state.plane) := by
  have hplane : (state.afterWords words).plane = state.plane :=
    state.plane_afterCommands unset
  have hdistinct : (state.afterWords words).plane.axes.Nodup := by rwa [hplane]
  have hplan := planBlock_levelled hdistinct (BlockModifiers.ofWords words).action
    (.ofBlock state words)
  rw [hplane] at hplan
  rw [plannedMotion, ModalState.afterWords_levelled distinct unset,
    (rewritesParameters_levelled distinct).modifiers, Parameters.ofBlock_levelled distinct unset,
    hplan]
  rfl

end

namespace Outcome

variable {σ : Type}

def levelled (outcome : Outcome σ) : Outcome σ :=
  ⟨outcome.state.levelled, outcome.settings,
    outcome.requests.map (Request.levelled outcome.state.plane)⟩

theorem levelled_stopped (state : ModalState) (status : StatusCode) (settings : σ) :
    (stopped state status settings).levelled = stopped state.levelled status settings := rfl

theorem levelled_moved (state : ModalState) (target : Point Float) (motion : Motion)
    (settings : σ) :
    (moved state target motion settings).levelled =
      moved state.levelled (target.levelled state.plane) (motion.levelled state.plane)
        settings := by
  rw [moved, moved, blockRequests_levelled]
  rfl

end Outcome

namespace Block

variable {σ : Type} {block : Block} {state : ModalState}
  (unset : ∀ word ∈ block.words, Slot.ofWord? word ≠ some .plane)

include unset

theorem plane_execute (settings : σ) :
    (block.execute state settings).state.plane = state.plane := by
  unfold execute
  cases block.fault? with
  | some status => exact state.plane_afterCommands (unset_takeWhile unset)
  | none =>
      cases plannedMotion state block.words with
      | error error => exact state.plane_afterCommands unset
      | ok motion => exact state.plane_afterCommands unset

theorem execute_levelled (distinct : state.plane.axes.Nodup) (settings : σ) :
    (block.map (Word.levelled state.plane)).execute state.levelled settings =
      (block.execute state settings).levelled := by
  have rewriting := rewritesParameters_levelled distinct
  unfold execute
  rw [rewriting.fault?_map]
  cases block.fault? with
  | some status =>
      have hread := state.afterCommands_levelled (unset_takeWhile unset)
      simp only [Block.map, rewriting.takeWhile_isSupported, rewriting.afterCommands, hread,
        Outcome.levelled_stopped]
  | none =>
      have hplane : (state.afterWords block.words).plane = state.plane :=
        state.plane_afterCommands unset
      simp only [Block.map, plannedMotion_levelled distinct unset,
        ModalState.afterWords_levelled distinct unset, Parameters.ofBlock_levelled distinct unset]
      cases plannedMotion state block.words with
      | error error => rfl
      | ok motion =>
          simp only [Except.map, Outcome.levelled_moved, hplane]
          rfl

end Block

/-! ## Programs -/

theorem GCode.nodup_of_plane? {number : Int} {code : GCode} {plane : Plane}
    (h : GCode.ofNumber? number = some code) (selected : code.plane? = some plane) :
    plane.axes.Nodup := by
  unfold GCode.ofNumber? at h
  split at h <;> cases h <;> cases selected <;> decide

section

variable {σ : Type} [SettingsHost σ]

theorem ProgramStep.nodup_axes_outcome (step : ProgramStep σ)
    (distinct : step.state.plane.axes.Nodup) : step.outcome.state.plane.axes.Nodup := by
  rw [step.lineEffect.state_eq]
  change (((lastG? .plane (commandWords step.line)).bind GCode.plane?).getD
    step.state.plane).axes.Nodup
  cases hselected : (lastG? .plane (commandWords step.line)).bind GCode.plane? with
  | none => exact distinct
  | some plane =>
      obtain ⟨code, hcode, hplane⟩ := Option.bind_eq_some_iff.1 hselected
      obtain ⟨word, -, hnumber⟩ := Option.bind_eq_some_iff.1 hcode
      exact GCode.nodup_of_plane? hnumber hplane

/-- What a machine does in any plane with three axes, line by line.  The axes of a plane are three
in every state that a program reaches. -/
theorem executeAll_levelled (settings : σ) :
    (∀ defaults lines,
      (executeProgram lines (.initial defaults) settings).state.plane.axes.Nodup) ∧
      ∀ (state : ModalState) (lines levelled : List (List Char)), state.plane.axes.Nodup →
        List.Forall₂ (IsRewriting (Word.levelled state.plane) .plane) lines levelled →
        List.Forall₂ (fun outcome twin =>
            twin.status = outcome.status ∧
              twin.requests = outcome.requests.map (Request.levelled state.plane) ∧
              twin.state = outcome.state.levelled)
          (executeAll lines state settings) (executeAll levelled state.levelled settings) := by
  constructor
  · intro defaults lines
    exact (programSteps_invariant (P := fun state => state.plane.axes.Nodup)
      (fun step : ProgramStep σ => step.nodup_axes_outcome) lines settings
      (by simp [ModalState.initial, Plane.axes, Plane.xy])).2
  · intro state lines levelled distinct rewritten
    have hsteps := executeAll_rewritten (fun current => current.plane = state.plane)
      ModalState.levelled Outcome.levelled (fun outcome => ⟨rfl, rfl⟩)
      (fun settings hunset hplane => ?_) rewritten rfl settings
    · refine hsteps.imp fun outcome twin hmatch => ?_
      obtain ⟨rfl, hplane⟩ := hmatch
      exact ⟨rfl, congrArg (fun plane => outcome.requests.map (Request.levelled plane)) hplane, rfl⟩
    · rw [← hplane] at distinct ⊢
      exact ⟨Block.execute_levelled hunset distinct settings,
        Block.plane_execute hunset settings⟩

end

theorem executeAll_levelled_yz :
    let state := { ModalState.initial (.ofConfig .standard) with
      plane := .yz, position := ⟨1, 2, 3⟩ }
    let settings := LiveSettings.unsaved .standard .empty
    let lines := ["G2Y4X0.5Z9R8F100".toList, "G91G3Z2I1K-3J7".toList, "X1G200".toList]
    let levelled := ["G2X4Z0.5Y9R8F100".toList, "G91G3Y2K1J-3I7".toList, "Z1G200".toList]
    List.Forall₂ (IsRewriting (Word.levelled .yz) .plane) lines levelled ∧
      (executeAll levelled state.levelled settings).map Outcome.status =
        [.ok, .ok, .unsupportedStatement] ∧
      (executeAll levelled state.levelled settings).map (fun twin => twin.state.position) =
        [⟨4, 9, 0.5⟩, ⟨4, 11, 0.5⟩, ⟨4, 11, 0.5⟩] := by
  intro state settings lines levelled
  have hlines : List.Forall₂ (IsRewriting (Word.levelled .yz) .plane) lines levelled :=
    .cons (by constructor <;> decide +kernel) <| .cons (by constructor <;> decide +kernel) <|
      .cons (by constructor <;> decide +kernel) .nil
  have hsame := (executeAll_levelled settings).2 state lines levelled (by decide) hlines
  have hstatus : (executeAll lines state settings).map Outcome.status =
      (executeAll levelled state.levelled settings).map Outcome.status :=
    map_eq_of_forall₂ hsame fun hmatch => hmatch.1.symm
  have hposition : (executeAll lines state settings).map (fun outcome =>
        outcome.state.levelled.position) =
      (executeAll levelled state.levelled settings).map fun twin => twin.state.position :=
    map_eq_of_forall₂ hsame fun hmatch => (congrArg ModalState.position hmatch.2.2).symm
  refine ⟨hlines, ?_, ?_⟩
  · rw [← hstatus]
    decide +kernel
  · rw [← hposition]
    decide +kernel

end Gcode
