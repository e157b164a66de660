import Gcode.Proofs.Block.Failure
import Gcode.Proofs.Program.Interleaving
import Gcode.Proofs.Program.Position
import Gcode.Proofs.Settings.Live

/-!
# Executing a line again

A line that fails fails again in the same way.  A line that succeeds leaves the modes, rates and
settings that it would leave again, and the position too unless it counts a coordinate from where
the machine stands.  Only an arc may then come out otherwise: the second time it starts where it
should end.
-/

namespace Gcode

/-- No coordinate among the words of a line counts from where the machine stands.  The modes are
those after the line. -/
def IsFixed (words : List Word) (modes : ModalState) : Prop :=
  modes.absoluteMode = true ∨ HasOverride words ∨
    ∀ word ∈ words, ∀ axis, Slot.ofWord? word ≠ some (.coordinate axis)

/-! ## Blocks -/

theorem getD_getD_self {α : Type} (written : Option α) (old : α) :
    written.getD (written.getD old) = written.getD old := by
  cases written <;> rfl

namespace ModalState

def movedTo (state : ModalState) (position : Point Float) (status : StatusCode) : ModalState :=
  { state with position, status }

variable (state : ModalState) (words : List Word)

theorem afterCommands_again :
    (state.afterCommands words).afterCommands words = state.afterCommands words := by
  simp only [afterCommands, getD_getD_self]

theorem afterParameters_again :
    (state.afterParameters words).afterParameters words = state.afterParameters words := by
  unfold afterParameters
  by_cases hinverse : state.inverseFeedRateMode = true
  · simp [hinverse, getD_getD_self]
  · simp [hinverse, getD_getD_self, inMillimeters]

theorem afterCommands_afterWords :
    (state.afterWords words).afterCommands words = state.afterWords words := by
  simp only [afterWords, afterParameters, afterCommands, getD_getD_self]

theorem afterCommands_movedTo (position : Point Float) (status : StatusCode) :
    (state.movedTo position status).afterCommands words =
      (state.afterCommands words).movedTo position status := rfl

theorem afterWords_again (position : Point Float) (status : StatusCode) :
    ((state.afterWords words).movedTo position status).afterWords words =
      (state.afterWords words).movedTo position status := by
  rw [afterWords, afterCommands_movedTo, afterCommands_afterWords]
  change ((state.afterWords words).afterParameters words).movedTo position status = _
  rw [afterWords, afterParameters_again]

end ModalState

theorem ModalState.coordinateAfter_of_absolute (state : ModalState) {absolute : Bool}
    {words : List Word} {axis : Axis} {word : Word} (h : absolute = true)
    (hword : lastWord? (.coordinate axis) words = some word) :
    state.coordinateAfter absolute words axis = state.inMillimeters word.value := by
  rw [coordinateAfter, hword]
  exact if_pos h

theorem IsFixed.absolute {state : ModalState} {words : List Word}
    (fixed : IsFixed words (state.afterWords words)) {axis : Axis} {word : Word}
    (hword : lastWord? (.coordinate axis) words = some word) :
    ((state.afterWords words).absoluteMode || (BlockModifiers.ofWords words).absoluteOverride) =
      true := by
  rcases fixed with hmode | hoverride | hnone
  · exact Bool.or_eq_true_iff.2 (.inl hmode)
  · exact Bool.or_eq_true_iff.2 (.inr ((lastWord?_absoluteOverride_isSome_iff words).2 hoverride))
  · rw [lastWord?_eq_none_iff.2 fun word hmem => hnone word hmem axis] at hword
    contradiction

/-- Where the machine may stand so that a line asks for the same as before: where it stood, or
where the line led, if the line is fixed. -/
def IsRestart (state : ModalState) (words : List Word) (position : Point Float) : Prop :=
  position = state.position ∨
    IsFixed words (state.afterWords words) ∧ position = (Parameters.ofBlock state words).target

theorem Parameters.ofBlock_again {state : ModalState} {words : List Word} {position : Point Float}
    (restart : IsRestart state words position) (status : StatusCode) :
    Parameters.ofBlock ((state.afterWords words).movedTo position status) words =
      .ofBlock state words := by
  have hmodes : ((state.afterWords words).movedTo position status).afterCommands words =
      (state.afterWords words).movedTo position status := by
    rw [ModalState.afterCommands_movedTo, ModalState.afterCommands_afterWords]
  have hcoordinate : ∀ axis, (Parameters.ofBlock ((state.afterWords words).movedTo position status)
      words).target.get axis = (Parameters.ofBlock state words).target.get axis := by
    intro axis
    rw [ofBlock, hmodes, target_ofWords]
    rcases restart with rfl | ⟨hfixed, rfl⟩
    · rw [ofBlock, target_ofWords]
      rfl
    · cases hword : lastWord? (.coordinate axis) words with
      | none =>
          rw [ModalState.coordinateAfter, hword]
          rfl
      | some word =>
          have habsolute := hfixed.absolute hword
          rw [ofBlock, target_ofWords]
          exact (ModalState.coordinateAfter_of_absolute _ habsolute hword).trans
            ((state.afterCommands words).coordinateAfter_of_absolute habsolute hword).symm
  have hothers : Parameters.ofBlock ((state.afterWords words).movedTo position status) words =
      { Parameters.ofBlock state words with
        target := (Parameters.ofBlock ((state.afterWords words).movedTo position status)
          words).target } := by
    rw [ofBlock, hmodes]
    rfl
  rw [hothers, Point.ext_get hcoordinate]

/-! ## Plans -/

theorem planBlock_movedTo {state : ModalState} {action : BlockAction} {parameters : Parameters}
    {motion : Motion} (planned : planBlock state action parameters = .ok motion)
    (noArc : ∀ helix feed, Request.arc helix feed ∉ motion.requests) (position : Point Float)
    (status : StatusCode) :
    planBlock (state.movedTo position status) action parameters = .ok motion := by
  rcases planBlock_ok planned with ⟨rfl, rfl⟩ | ⟨rfl, rfl⟩ | ⟨rfl, hmode, rfl⟩ |
    ⟨rfl, hmode, rfl⟩ | ⟨-, -, direction, arc, -, rfl⟩
  · rfl
  · rfl
  · have hsame : (state.movedTo position status).motionMode = .cancel := hmode
    simp only [planBlock, hsame]
  · have hsame : (state.movedTo position status).motionMode = .rapidLinear ∨
        (state.movedTo position status).motionMode = .linear := hmode
    rcases hsame with hsame | hsame <;> simp only [planBlock, hsame] <;> rfl
  · exact absurd List.mem_cons_self (noArc _ _)

theorem plannedMotion_again {state : ModalState} {words : List Word} {position : Point Float}
    (restart : IsRestart state words position) (status : StatusCode) :
    plannedMotion ((state.afterWords words).movedTo position status) words =
      planBlock ((state.afterWords words).movedTo position status)
        (BlockModifiers.ofWords words).action (.ofBlock state words) := by
  rw [plannedMotion, ModalState.afterWords_again, Parameters.ofBlock_again restart]

/-! ## Lines -/

theorem executeSettings_again {line : List Char} {settings : LiveSettings}
    (succeeded : (executeSettings line settings).1 = .ok ()) :
    (executeSettings line (executeSettings line settings).2).1 = .ok () ∧
      (executeSettings line (executeSettings line settings).2).2.table =
        (executeSettings line settings).2.table := by
  rcases executeSettings_cases line settings with
    ⟨error, -, hfailed⟩ | ⟨statement, hparse, hafter, hstatus⟩
  · rw [hfailed] at succeeded
    contradiction
  · rcases executeSettings_cases line (executeSettings line settings).2 with
      ⟨error, hagain, -⟩ | ⟨again, hagain, hsecond, hsecondStatus⟩
    · rw [hparse] at hagain
      contradiction
    · obtain rfl := Except.ok.inj (hparse.symm.trans hagain)
      rw [hsecondStatus, hsecond, hafter]
      cases statement with
      | list => exact ⟨rfl, rfl⟩
      | store index value => exact LiveSettings.store_again (hstatus.1 succeeded)

theorem execute_movedTo {σ : Type} [SettingsHost σ] {line : List Char}
    (faultless : Faultless (withoutBlockDelete line)) {state : ModalState}
    {position : Point Float} (restart : IsRestart state (blockWords line) position)
    (status : StatusCode) (settings : σ) :
    let again := (state.afterWords (blockWords line)).movedTo position status
    execute line again settings =
      match planBlock again (BlockModifiers.ofWords (blockWords line)).action
        (.ofBlock state (blockWords line)) with
      | .error _ => ⟨again.movedTo position .floatingPointError, settings, []⟩
      | .ok motion =>
        ⟨again.movedTo (Parameters.ofBlock state (blockWords line)).target .ok, settings,
          blockRequests again motion⟩ := by
  intro again
  rw [execute_block faultless.isBlock, executeBlock_of_faultless faultless]
  have hplan := plannedMotion_again restart status
  have hwords := state.afterWords_again (blockWords line) position status
  have hparameters := Parameters.ofBlock_again restart status
  rw [← blockWords, hplan, hwords, hparameters]
  cases hmotion : planBlock again (BlockModifiers.ofWords (blockWords line)).action
      (.ofBlock state (blockWords line)) with
  | error error =>
      simp only [StatusCode.ofResult_error, planBlock_error_status hmotion]
      rfl
  | ok motion => rfl

/-- What the second execution of a line keeps of the first: all of the state but the status, the
settings table, and the requests unless there is an arc among them. -/
structure Outcome.Repeats (second first : Outcome LiveSettings) : Prop where
  state : second.state.withoutStatus = first.state.withoutStatus
  table : second.settings.table = first.settings.table
  requests : (∀ helix feed, Request.arc helix feed ∉ first.requests) →
    second.status = .ok ∧ second.requests = first.requests

theorem execute_statement {σ : Type} [SettingsHost σ] {line : List Char}
    (start : line.head? = some '$') (state : ModalState) (settings : σ) :
    execute line state settings =
      ⟨{ state with status := .ofResult (executeSettings line settings).1 },
        (executeSettings line settings).2, []⟩ := by
  obtain ⟨rest, rfl⟩ := List.head?_eq_some_iff.1 start
  rfl

theorem execute_of_fault {σ : Type} [SettingsHost σ] {line : List Char} {column : Nat}
    {fault : WordFault} (block : IsBlock line)
    (found : leftmostFault? (withoutBlockDelete line) = some (column, fault)) (state : ModalState)
    (settings : σ) :
    execute line state settings =
      ⟨(state.afterCommands (commandWords line)).movedTo state.position fault.status, settings,
        []⟩ := by
  rw [execute_block block, executeBlock_of_fault found]
  simp only [StatusCode.ofResult_error, WordFault.status_error]
  rfl

theorem StatusCode.ofResult_eq_ok {result : Except LineError Unit}
    (h : StatusCode.ofResult result = .ok) : result = .ok () := by
  cases result with
  | error error => exact absurd h error.status_ne_ok
  | ok value => rfl

namespace LineEffect

variable {line : List Char} {state : ModalState} {settings : LiveSettings}
  {outcome : Outcome LiveSettings}

theorem fails_again (effect : LineEffect line state settings outcome)
    (failed : outcome.status ≠ .ok) : execute line outcome.state outcome.settings = outcome := by
  cases effect with
  | comment start => exact absurd rfl failed
  | statement start =>
      obtain ⟨error, herror⟩ : ∃ error, (executeSettings line settings).1 = .error error :=
        StatusCode.exists_error failed
      rw [execute_statement start]
      simp only [executeSettings_error herror]
  | @fault column fault block found =>
      change execute line ((state.afterCommands (commandWords line)).movedTo state.position
        fault.status) settings = ⟨(state.afterCommands (commandWords line)).movedTo state.position
          fault.status, settings, []⟩
      rw [execute_of_fault block found, ModalState.afterCommands_movedTo,
        ModalState.afterCommands_again]
      rfl
  | @impossible error faultless planned =>
      -- nothing moved, so the arc has the same ends again
      have hrestart : IsRestart state (blockWords line) state.position := .inl rfl
      have hplan : planBlock ((state.afterWords (blockWords line)).movedTo state.position
          .floatingPointError) (BlockModifiers.ofWords (blockWords line)).action
          (.ofBlock state (blockWords line)) = .error error := by
        rw [← planned, plannedMotion]
        cases (BlockModifiers.ofWords (blockWords line)).action <;> rfl
      refine (execute_movedTo faultless hrestart .floatingPointError settings).trans ?_
      rw [hplan]
      rfl
  | success => exact absurd rfl failed

theorem repeats (effect : LineEffect line state settings outcome) (succeeded : outcome.status = .ok)
    (fixed : IsFixed (blockWords line) outcome.state) :
    (execute line outcome.state outcome.settings).Repeats outcome := by
  cases effect with
  | comment start =>
      obtain ⟨rest, rfl⟩ := List.head?_eq_some_iff.1 start
      exact ⟨rfl, rfl, fun _ => ⟨rfl, rfl⟩⟩
  | statement start =>
      obtain ⟨hagain, htable⟩ := executeSettings_again (StatusCode.ofResult_eq_ok succeeded)
      rw [execute_statement start]
      refine ⟨rfl, htable, fun _ => ⟨?_, rfl⟩⟩
      change StatusCode.ofResult _ = _
      rw [hagain]
      rfl
  | @fault column fault => exact absurd succeeded fault.status_ne_ok
  | impossible => exact absurd succeeded (by simp [Outcome.status])
  | @success motion faultless planned =>
      have hrestart : IsRestart state (blockWords line)
          (Parameters.ofBlock state (blockWords line)).target := .inr ⟨fixed, rfl⟩
      have hagain := execute_movedTo faultless hrestart .ok settings
      have hsame : (∀ helix feed, Request.arc helix feed ∉
            blockRequests (state.afterWords (blockWords line)) motion) →
          planBlock ((state.afterWords (blockWords line)).movedTo
            (Parameters.ofBlock state (blockWords line)).target .ok)
            (BlockModifiers.ofWords (blockWords line)).action (.ofBlock state (blockWords line)) =
              .ok motion := fun noArc =>
        planBlock_movedTo planned (fun helix feed hmem =>
          noArc helix feed (List.mem_cons_of_mem _ hmem)) _ _
      generalize hafter : (state.afterWords (blockWords line)).movedTo
        (Parameters.ofBlock state (blockWords line)).target .ok = after at hagain hsame
      change Outcome.Repeats (execute line ((state.afterWords (blockWords line)).movedTo
        (Parameters.ofBlock state (blockWords line)).target .ok) settings) _
      rw [hafter, hagain]
      cases hplan : planBlock after (BlockModifiers.ofWords (blockWords line)).action
          (.ofBlock state (blockWords line)) with
      | error failure =>
          subst hafter
          refine ⟨rfl, rfl, fun noArc => ?_⟩
          rw [hsame noArc] at hplan
          contradiction
      | ok again =>
          subst hafter
          refine ⟨rfl, rfl, fun noArc => ⟨rfl, ?_⟩⟩
          obtain rfl := Except.ok.inj ((hsame noArc).symm.trans hplan)
          rfl

end LineEffect

/-- A line that fails does the same when it is executed again.  One that succeeds and counts no
coordinate from where the machine stands leaves everything as it is, and asks for the same again
unless it asked for an arc. -/
theorem execute_again (line : List Char) (state : ModalState) (settings : LiveSettings) :
    let first := execute line state settings
    let second := execute line first.state first.settings
    (first.status ≠ .ok → second = first) ∧
      (first.status = .ok → IsFixed (blockWords line) first.state → second.Repeats first) :=
  ⟨(execute_lineEffect line state settings).fails_again,
    (execute_lineEffect line state settings).repeats⟩

theorem execute_again_radiusArc :
    let first := execute "G2X10R5".toList (.initial (.ofConfig .standard))
      (LiveSettings.unsaved .standard .empty)
    let second := execute "G2X10R5".toList first.state first.settings
    first.status = .ok ∧ second.status = .floatingPointError ∧
      second.state.withoutStatus = first.state.withoutStatus := by
  intro first second
  have hfirst : first.status = .ok := by decide +kernel
  have hsecond : second.status = .floatingPointError := by decide +kernel
  have hrepeats := (execute_again "G2X10R5".toList (.initial (.ofConfig .standard))
    (LiveSettings.unsaved .standard .empty)).2 hfirst (.inl (by decide +kernel))
  exact ⟨hfirst, hsecond, hrepeats.state⟩

end Gcode
