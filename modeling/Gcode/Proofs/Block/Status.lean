import Gcode.Proofs.Block.Execution
import Gcode.Settings.Config
import Gcode.Settings.Live

/-!
# The status of a block

The leftmost failing word of a block decides its status, whatever the state.  A block without one
fails only if it asks for an arc by a radius that fits no circle.
-/

namespace Gcode

/-! ## The action of a line -/

theorem GCode.exists_of_slot_action {word : Word} (h : Slot.ofWord? word = some .action) :
    ∃ code, GCode.ofNumber? (truncatedCode word.value) = some code ∧ code.slot = .action := by
  unfold Slot.ofWord? at h
  split at h
  case h_1 =>
      rw [Slot.ofG?_eq_map] at h
      exact Option.map_eq_some_iff.1 h
  case h_2 =>
      rw [Slot.ofM?_eq_map] at h
      obtain ⟨code, -, hcode⟩ := Option.map_eq_some_iff.1 h
      cases code <;> cases hcode
  all_goals cases h

theorem BlockModifiers.action_eq_motion_iff {words : List Word} :
    (BlockModifiers.ofWords words).action = .motion ↔
      ∀ word ∈ words, Slot.ofWord? word ≠ some .action := by
  rw [← lastWord?_eq_none_iff]
  cases hlast : lastWord? .action words with
  | none => simp [BlockModifiers.ofWords, lastG?, hlast]
  | some word =>
      obtain ⟨code, hcode, hslot⟩ := GCode.exists_of_slot_action (lastWord?_slot hlast)
      cases code <;>
        simp_all [BlockModifiers.ofWords, lastG?, GCode.slot, GCode.action?]

/-! ## Impossible arcs -/

/-- The line moves along an arc with a radius, and on no circle of that radius lie both its ends. -/
structure UnsolvableArc (state : ModalState) (words : List Word) : Prop where
  moves : ∀ word ∈ words, Slot.ofWord? word ≠ some .action
  arc : (state.afterCommands words).motionMode.IsArc
  radius : ∃ word, lastWord? .radius words = some word ∧
    let modes := state.afterCommands words
    let absolute := modes.absoluteMode || (lastWord? .absoluteOverride words).isSome
    let x := modes.coordinateAfter absolute words modes.plane.first -
      state.position.get modes.plane.first
    let y := modes.coordinateAfter absolute words modes.plane.second -
      state.position.get modes.plane.second
    let r := modes.inMillimeters word.value
    (-(4 * r * r - x * x - y * y).sqrt / hypotenuse x y).isFinite = false

theorem plannedMotion_isError_iff {state : ModalState} {words : List Word} :
    (∃ error, plannedMotion state words = .error error) ↔ UnsolvableArc state words := by
  rw [plannedMotion, planBlock_isError_iff, BlockModifiers.action_eq_motion_iff]
  constructor
  · rintro ⟨hmoves, harc, r, hradius, hfinite⟩
    obtain ⟨word, hword, rfl⟩ := Option.map_eq_some_iff.1 hradius
    refine ⟨hmoves, harc, word, hword, ?_⟩
    rw [Parameters.ofBlock, Parameters.target_ofWords, Parameters.target_ofWords] at hfinite
    exact hfinite
  · rintro ⟨hmoves, harc, word, hword, hfinite⟩
    refine ⟨hmoves, harc, _, Option.map_eq_some_iff.2 ⟨word, hword, rfl⟩, ?_⟩
    rw [Parameters.ofBlock, Parameters.target_ofWords, Parameters.target_ofWords]
    exact hfinite

/-- The leftmost failing word of a block decides its status in every state; without one the block
fails only for an arc that cannot be. -/
theorem execute_block_status {σ : Type} [SettingsHost σ] (line : List Char) (state : ModalState)
    (settings : σ) (block : IsBlock line) :
    (∀ column fault, leftmostFault? (withoutBlockDelete line) = some (column, fault) →
      (execute line state settings).status = fault.status) ∧
    (leftmostFault? (withoutBlockDelete line) = none →
      ((execute line state settings).status = .floatingPointError ↔
        UnsolvableArc state (wordsOf (withoutBlockDelete line))) ∧
      ((execute line state settings).status = .ok ↔
        ¬ UnsolvableArc state (wordsOf (withoutBlockDelete line)))) := by
  rw [execute_block block]
  constructor
  · intro column fault hfault
    rw [executeBlock_of_fault hfault]
    exact fault.status_error column
  · intro hnone
    rw [executeBlock_of_faultless (leftmostFault?_eq_none_iff.1 hnone), ← plannedMotion_isError_iff]
    cases hplan : plannedMotion state (wordsOf (withoutBlockDelete line)) with
    | ok motion => simp [Outcome.status, StatusCode.ofResult]
    | error error =>
        have hstatus := planBlock_error_status hplan
        simp [Outcome.status, StatusCode.ofResult, hstatus]

theorem execute_block_status_shortRadius :
    (execute "G1XG200".toList (.initial (.ofConfig .standard))
        (LiveSettings.unsaved .standard .empty)).status = .badNumberFormat ∧
      (execute "G2X10R1".toList (.initial (.ofConfig .standard))
        (LiveSettings.unsaved .standard .empty)).status = .floatingPointError := by
  have hwords : wordsOf "G2X10R1".toList = [⟨'G', 2⟩, ⟨'X', 10⟩, ⟨'R', 1⟩] := by decide +kernel
  have hstatus := fun line => execute_block_status line (.initial (.ofConfig .standard))
    (LiveSettings.unsaved .standard .empty)
  constructor
  · exact (hstatus "G1XG200".toList (by decide)).1 2 .noNumber (by decide +kernel)
  · refine ((hstatus "G2X10R1".toList (by decide)).2
      (leftmostFault?_eq_none_iff.2 (by decide +kernel))).1.2 ?_
    rw [show withoutBlockDelete "G2X10R1".toList = "G2X10R1".toList from rfl, hwords]
    refine ⟨by decide +kernel, .inl (by decide +kernel), ⟨'R', 1⟩, by decide +kernel, ?_⟩
    decide +kernel

end Gcode
