import Gcode.Proofs.Block.Execution
import Gcode.Settings.Config
import Gcode.Settings.Live

/-!
# Only the last word of a slot counts

Two lines without faults that have the same last word in every slot do the same, in whatever order
their words stand and whatever other words they hold.
-/

namespace Gcode

/-- The lines agree on the last word of each slot.  Of the words `G53` only the presence counts. -/
structure SameLastWords (left right : List Word) : Prop where
  lastWord : ∀ slot, slot ≠ .absoluteOverride → lastWord? slot left = lastWord? slot right
  absoluteOverride :
    (lastWord? .absoluteOverride left).isSome = (lastWord? .absoluteOverride right).isSome

namespace SameLastWords

variable {left right : List Word}

theorem afterCommands (same : SameLastWords left right) (state : ModalState) :
    state.afterCommands left = state.afterCommands right :=
  ModalState.afterCommands_congr same.lastWord state

theorem modifiers (same : SameLastWords left right) :
    BlockModifiers.ofWords left = .ofWords right := by
  have hlast := same.lastWord .action (by decide)
  simp only [BlockModifiers.ofWords, lastG?, hlast, same.absoluteOverride]

theorem parameters (same : SameLastWords left right) (state : ModalState) (absolute : Bool) :
    Parameters.ofWords state absolute left = .ofWords state absolute right := by
  have hlast := same.lastWord
  simp (disch := decide) only [Parameters.ofWords, ModalState.coordinateAfter,
    ModalState.lastLength?, hlast]

theorem afterWords (same : SameLastWords left right) (state : ModalState) :
    state.afterWords left = state.afterWords right :=
  ModalState.afterWords_congr same.lastWord state

theorem ofBlock (same : SameLastWords left right) (state : ModalState) :
    Parameters.ofBlock state left = .ofBlock state right := by
  simp only [Parameters.ofBlock, same.afterCommands, same.modifiers, same.parameters]

theorem plannedMotion (same : SameLastWords left right) (state : ModalState) :
    Gcode.plannedMotion state left = Gcode.plannedMotion state right := by
  simp only [Gcode.plannedMotion, same.afterWords, same.modifiers, same.ofBlock]

end SameLastWords

/-- Lines with the same last words lead to the same outcome: state, settings, status, requests. -/
theorem execute_eq_of_sameLastWords {σ : Type} [SettingsHost σ] (left right : List Char)
    (state : ModalState) (settings : σ) (hleft : Faultless (withoutBlockDelete left))
    (hright : Faultless (withoutBlockDelete right))
    (same : SameLastWords (wordsOf (withoutBlockDelete left))
      (wordsOf (withoutBlockDelete right))) :
    execute left state settings = execute right state settings := by
  rw [execute_block hleft.isBlock, execute_block hright.isBlock,
    executeBlock_of_faultless hleft, executeBlock_of_faultless hright, same.plannedMotion,
    same.afterWords, same.ofBlock]

theorem execute_eq_of_sameLastWords_relative :
    execute "G0G91X1X2".toList (.initial (.ofConfig .standard))
        (LiveSettings.unsaved .standard .empty) =
      execute "/X2G1Q7G91G0".toList (.initial (.ofConfig .standard))
        (LiveSettings.unsaved .standard .empty) := by
  have hleft : wordsOf (withoutBlockDelete "G0G91X1X2".toList) =
      [⟨'G', 0⟩, ⟨'G', 91⟩, ⟨'X', 1⟩, ⟨'X', 2⟩] := by decide +kernel
  have hright : wordsOf (withoutBlockDelete "/X2G1Q7G91G0".toList) =
      [⟨'X', 2⟩, ⟨'G', 1⟩, ⟨'Q', 7⟩, ⟨'G', 91⟩, ⟨'G', 0⟩] := by decide +kernel
  refine execute_eq_of_sameLastWords _ _ _ _ (by decide +kernel) (by decide +kernel) ?_
  rw [hleft, hright]
  refine ⟨fun slot _ => ?_, by decide +kernel⟩
  cases slot with
  | centre axis | coordinate axis => cases axis <;> decide +kernel
  | _ => decide +kernel

end Gcode
