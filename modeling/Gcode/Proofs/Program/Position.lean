import Gcode.Proofs.Program.Steps
import Gcode.Settings.Config
import Gcode.Settings.Live

/-!
# The position over a program

A line moves an axis only if it is a block that succeeds and has a word for the axis, and then its
last such word says where to.  The modes that decide how the word counts are those that the line's
own commands leave.  Of a word `G53` nothing remains but the place that its line reached.
-/

namespace Gcode

def HasOverride (words : List Word) : Prop :=
  ∃ word ∈ words, Slot.ofWord? word = some .absoluteOverride

instance (words : List Word) : Decidable (HasOverride words) :=
  inferInstanceAs (Decidable (∃ word ∈ words, Slot.ofWord? word = some .absoluteOverride))

theorem lastWord?_absoluteOverride_isSome_iff (words : List Word) :
    (lastWord? .absoluteOverride words).isSome = true ↔ HasOverride words := by
  rw [Option.isSome_iff_ne_none, ne_eq, lastWord?_eq_none_iff]
  simp [HasOverride]

theorem lastWord?_withoutOverride {slot : Slot} (h : slot ≠ .absoluteOverride)
    (words : List Word) :
    lastWord? slot (words.filter fun word => Slot.ofWord? word ≠ some .absoluteOverride) =
      lastWord? slot words := by
  refine lastWord?_filter (fun word hword => ?_) words
  simpa [hword] using h

variable {σ : Type} [SettingsHost σ]

namespace ProgramStep

def coordinate (step : ProgramStep σ) (axis : Axis) (old : Float) : Float :=
  if step.Succeeds then
    match lastWord? (.coordinate axis) (blockWords step.line) with
    | none => old
    | some word =>
      if step.outcome.state.absoluteMode = true ∨ HasOverride (blockWords step.line) then
        word.millimeters step.outcome.state
      else old + word.millimeters step.outcome.state
  else old

theorem position_outcome (step : ProgramStep σ) (axis : Axis) :
    step.outcome.state.position.get axis = step.coordinate axis (step.state.position.get axis) := by
  unfold coordinate
  by_cases hsucceeds : step.Succeeds
  · obtain ⟨motion, -, -, houtcome⟩ := step.lineEffect.of_succeeded hsucceeds.1 hsucceeds.2
    rw [if_pos hsucceeds, houtcome]
    rw [Parameters.ofBlock, Parameters.target_ofWords, ModalState.coordinateAfter]
    cases lastWord? (.coordinate axis) (blockWords step.line) with
    | none => rfl
    | some word =>
        simp only [ModalState.inMillimeters_value, Bool.or_eq_true,
          BlockModifiers.ofWords, lastWord?_absoluteOverride_isSome_iff]
        rfl
  · rw [if_neg hsucceeds, (step.lineEffect.still_of_failed hsucceeds).2]

/-- Without its words `G53` the line would leave the same state but for the position and the
status. -/
def OverrideIsLocal (step : ProgramStep σ) : Prop :=
  ∀ plain : List Char, Faultless (withoutBlockDelete step.line) →
    Faultless (withoutBlockDelete plain) →
    blockWords plain =
      (blockWords step.line).filter (fun word => Slot.ofWord? word ≠ some .absoluteOverride) →
    { (execute plain step.state step.settings).state with
      position := step.outcome.state.position
      status := step.outcome.state.status } = step.outcome.state

theorem overrideIsLocal (step : ProgramStep σ) : step.OverrideIsLocal := by
  intro plain hline hplain hwords
  have hsame : step.state.afterWords (blockWords plain) =
      step.state.afterWords (blockWords step.line) := by
    rw [hwords]
    refine ModalState.afterWords_congr (fun slot hslot => ?_) step.state
    exact lastWord?_withoutOverride hslot _
  rw [(execute_lineEffect plain step.state step.settings).state_of_faultless hplain, hsame]
  exact (step.lineEffect.state_of_faultless hline).symm

end ProgramStep

/-- Where each axis stands over a program.  The modes after a line are those after its commands. -/
theorem executeProgram_position (lines : List (List Char)) (state : ModalState) (settings : σ)
    (axis : Axis) :
    let steps := programSteps lines state settings
    (executeProgram lines state settings).state.position.get axis =
        steps.foldl (fun old step => step.coordinate axis old) (state.position.get axis) ∧
      ∀ step ∈ steps,
        step.outcome.state.position.get axis =
            step.coordinate axis (step.state.position.get axis) ∧
          step.outcome.state.mmPerInch = state.mmPerInch ∧
          step.outcome.state.units =
            ((lastG? .units (commandWords step.line)).bind GCode.units?).getD step.state.units ∧
          step.outcome.state.absoluteMode =
            ((lastG? .distance (commandWords step.line)).bind GCode.absoluteMode?).getD
              step.state.absoluteMode ∧
          step.OverrideIsLocal := by
  intro steps
  constructor
  · exact executeProgram_foldl (fun current => current.position.get axis)
      (fun step old => step.coordinate axis old) (fun step => step.position_outcome axis)
      lines state settings
  · intro step hstep
    refine ⟨step.position_outcome axis, mmPerInch_of_mem_programSteps hstep, step.units_outcome,
      ?_, step.overrideIsLocal⟩
    rw [step.lineEffect.state_eq]
    rfl

theorem executeProgram_position_override :
    let program := ["X0.5G91G20".toList, "G53X2".toList, "X1X0.5".toList, "X9G200".toList]
    let outcome := executeProgram program (.initial (.ofConfig .standard))
      (LiveSettings.unsaved .standard .empty)
    outcome.state.position.get .x = 2 * 25.4 + 0.5 * 25.4 ∧ outcome.state.absoluteMode = false := by
  intro program outcome
  have hposition := executeProgram_position program (.initial (.ofConfig .standard))
    (LiveSettings.unsaved .standard .empty) .x
  refine ⟨hposition.1.trans ?_, ?_⟩
  · decide +kernel
  · decide +kernel

end Gcode
