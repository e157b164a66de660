import Gcode.Proofs.Block.Words
import Gcode.Proofs.Program.Steps
import Gcode.Settings.Config
import Gcode.Settings.Live

/-!
# Fields that nothing reads

The status of the last line, the program flow, the tool and the seek rate are only kept.  Two
machines that differ in these fields alone do the same under every program, so a rapid move does not
ask for the seek rate, and no `M0`, `M2` or `M30` holds a later line back.
-/

namespace Gcode

def ModalState.withoutBookkeeping (state : ModalState) : ModalState :=
  { state with status := .ok, programFlow := .running, tool := 0, seekRate := 0 }

theorem plannedMotion_withoutBookkeeping (state : ModalState) (words : List Word) :
    plannedMotion state.withoutBookkeeping words = plannedMotion state words := by
  have hplan : ∀ action parameters, planBlock (state.withoutBookkeeping.afterWords words) action
      parameters = planBlock (state.afterWords words) action parameters := by
    intro action parameters
    cases action <;> rfl
  exact hplan _ _

/-- What two outcomes have in common if only fields that nothing reads differ before. -/
structure Outcome.SameMachine {σ : Type} (outcome twin : Outcome σ) : Prop where
  status : outcome.status = twin.status
  requests : outcome.requests = twin.requests
  settings : outcome.settings = twin.settings
  state : outcome.state.withoutBookkeeping = twin.state.withoutBookkeeping

theorem Block.execute_withoutBookkeeping {σ : Type} (block : Block) (state : ModalState)
    (settings : σ) :
    (block.execute state.withoutBookkeeping settings).SameMachine
      (block.execute state settings) := by
  unfold execute
  rw [plannedMotion_withoutBookkeeping]
  cases block.fault? with
  | some status => exact ⟨rfl, rfl, rfl, rfl⟩
  | none =>
      cases plannedMotion state block.words with
      | error error => exact ⟨rfl, rfl, rfl, rfl⟩
      | ok motion => exact ⟨rfl, rfl, rfl, rfl⟩

variable {σ : Type} [SettingsHost σ]

theorem execute_withoutBookkeeping (line : List Char) (state : ModalState) (settings : σ) :
    (execute line state.withoutBookkeeping settings).SameMachine
      (execute line state settings) := by
  rcases isComment_or_isSettings_or_isBlock line with ⟨rest, rfl⟩ | ⟨rest, rfl⟩ | hblock
  · exact ⟨rfl, rfl, rfl, rfl⟩
  · exact ⟨rfl, rfl, rfl, rfl⟩
  · rw [execute_block_eq hblock, execute_block_eq hblock]
    exact Block.execute_withoutBookkeeping ..

theorem execute_sameMachine {left right : ModalState}
    (same : left.withoutBookkeeping = right.withoutBookkeeping) (line : List Char) (settings : σ) :
    (execute line left settings).SameMachine (execute line right settings) := by
  have hleft := execute_withoutBookkeeping line left settings
  have hright := execute_withoutBookkeeping line right settings
  rw [same] at hleft
  exact ⟨hleft.status.symm.trans hright.status, hleft.requests.symm.trans hright.requests,
    hleft.settings.symm.trans hright.settings, hleft.state.symm.trans hright.state⟩

/-! ## Programs -/

theorem ProgramStep.seekRate_outcome (step : ProgramStep σ) :
    step.outcome.state.seekRate = step.state.seekRate := by
  rw [step.lineEffect.state_eq]
  rfl

/-- Two runs of a program that start with different bookkeeping, line by line.  In every run the
seek rate and the length of an inch stay what they are at the start. -/
theorem executeAll_sameMachine (lines : List (List Char)) (left right : ModalState) (settings : σ)
    (same : left.withoutBookkeeping = right.withoutBookkeeping) :
    List.Forall₂ Outcome.SameMachine (executeAll lines left settings)
        (executeAll lines right settings) ∧
      ∀ start : ModalState, ∀ outcome ∈ executeAll lines start settings,
        outcome.state.seekRate = start.seekRate ∧ outcome.state.mmPerInch = start.mmPerInch := by
  constructor
  · refine executeAll_inStep
      (fun state twin => state.withoutBookkeeping = twin.withoutBookkeeping)
      Outcome.SameMachine
      (fun settings hline hsame => ?_) (fun hmatch => ⟨hmatch.state, hmatch.settings⟩)
      (List.forall₂_same.2 fun _ _ => rfl) same settings
    obtain rfl := hline
    exact execute_sameMachine hsame _ settings
  · intro start outcome houtcome
    rw [← map_outcome_programSteps] at houtcome
    obtain ⟨step, hstep, rfl⟩ := List.mem_map.1 houtcome
    refine ⟨?_, mmPerInch_of_mem_programSteps hstep⟩
    exact ((programSteps_invariant (P := fun state => state.seekRate = start.seekRate)
      (fun earlier before => earlier.seekRate_outcome.trans before) lines settings rfl).1
        step hstep).2

theorem executeAll_sameMachine_completed :
    let initial := ModalState.initial (.ofConfig .standard)
    let completed := { initial with
      status := .floatingPointError, programFlow := .completed, tool := 7, seekRate := 99 }
    let settings := LiveSettings.unsaved .standard .empty
    let lines := ["G0X5F60".toList, "M30T3".toList, "G200".toList, "$4=300".toList, "X9".toList]
    initial.withoutBookkeeping = completed.withoutBookkeeping ∧
      (executeAll lines completed settings).map Outcome.status =
        [.ok, .ok, .unsupportedStatement, .ok, .ok] ∧
      (executeAll lines completed settings).map (fun twin => twin.requests.length) =
        [2, 2, 0, 0, 2] ∧
      ∀ outcome ∈ executeAll lines completed settings, outcome.state.seekRate = 99 := by
  intro initial completed settings lines
  have hsame : initial.withoutBookkeeping = completed.withoutBookkeeping := rfl
  obtain ⟨hsteps, hkept⟩ := executeAll_sameMachine lines initial completed settings hsame
  have hstatus : (executeAll lines initial settings).map Outcome.status =
      (executeAll lines completed settings).map Outcome.status :=
    map_eq_of_forall₂ hsteps fun hmatch => hmatch.status
  have hrequests :
      (executeAll lines initial settings).map (fun outcome => outcome.requests.length) =
        (executeAll lines completed settings).map fun twin => twin.requests.length :=
    map_eq_of_forall₂ hsteps fun hmatch => congrArg List.length hmatch.requests
  refine ⟨hsame, ?_, ?_, fun outcome houtcome => (hkept completed outcome houtcome).1⟩
  · rw [← hstatus]
    decide +kernel
  · rw [← hrequests]
    decide +kernel

end Gcode
