import Gcode.Proofs.Program.Effect
import Mathlib.Data.List.Forall2

/-!
# The steps of a program

A program is executed step by step, and each step starts from what the one before it left.
`programSteps` lists the steps; the requests and the final state of the program are read off that
list.  A quantity that each line derives from its own old value is a fold over the steps, and one
that some lines set and the others keep was set by the last of those lines.
-/

namespace Gcode

theorem foldl_getD_eq_getLast? {α β : Type} (write? : α → Option β) (items : List α)
    (start : β) :
    items.foldl (fun value item => (write? item).getD value) start =
      (items.filterMap write?).getLast?.getD start := by
  induction items generalizing start with
  | nil => rfl
  | cons item items ih =>
      rw [List.foldl_cons, ih]
      cases hwrite : write? item with
      | none => simp [hwrite]
      | some value => simp [hwrite, List.getLast?_cons]

theorem map_eq_of_forall₂ {α β γ : Type} {Matches : α → β → Prop} {items : List α}
    {others : List β} (inStep : List.Forall₂ Matches items others) {view : α → γ} {other : β → γ}
    (same : ∀ {item twin}, Matches item twin → view item = other twin) :
    items.map view = others.map other := by
  rw [← List.forall₂_eq_eq_eq, List.forall₂_map_left_iff, List.forall₂_map_right_iff]
  exact inStep.imp fun _ _ hmatch => same hmatch

def Word.millimeters (word : Word) (state : ModalState) : Float :=
  if state.units = .inches then word.value * state.mmPerInch else word.value

theorem ModalState.inMillimeters_value (state : ModalState) (word : Word) :
    state.inMillimeters word.value = word.millimeters state := by
  unfold inMillimeters Word.millimeters Units.inMillimeters
  cases state.units <;> rfl

theorem Word.millimeters_congr {left right : ModalState} (units : left.units = right.units)
    (scale : left.mmPerInch = right.mmPerInch) (word : Word) :
    word.millimeters left = word.millimeters right := by
  rw [millimeters, millimeters, units, scale]

structure ProgramStep (σ : Type) where
  line : List Char
  state : ModalState
  settings : σ

namespace ProgramStep

variable {σ : Type}

def readsCommands (step : ProgramStep σ) : Bool :=
  IsBlock step.line && (readCommands (withoutBlockDelete step.line) step.state).1.isOk

theorem readsCommands_iff (step : ProgramStep σ) :
    step.readsCommands = true ↔ Faultless (withoutBlockDelete step.line) := by
  simp only [readsCommands, Bool.and_eq_true, decide_eq_true_eq, readCommands_isOk_iff,
    and_iff_right_iff_imp]
  exact Faultless.isBlock

variable [SettingsHost σ]

def outcome (step : ProgramStep σ) : Outcome σ := execute step.line step.state step.settings

def Succeeds (step : ProgramStep σ) : Prop := IsBlock step.line ∧ step.outcome.status = .ok

instance (step : ProgramStep σ) : Decidable step.Succeeds :=
  inferInstanceAs (Decidable (IsBlock step.line ∧ step.outcome.status = .ok))

theorem lineEffect (step : ProgramStep σ) :
    LineEffect step.line step.state step.settings step.outcome :=
  execute_lineEffect step.line step.state step.settings

theorem units_outcome (step : ProgramStep σ) :
    step.outcome.state.units =
      ((lastG? .units (commandWords step.line)).bind GCode.units?).getD step.state.units := by
  rw [step.lineEffect.state_eq]
  rfl

theorem mmPerInch_outcome (step : ProgramStep σ) :
    step.outcome.state.mmPerInch = step.state.mmPerInch := by
  rw [step.lineEffect.state_eq]
  rfl

end ProgramStep

variable {σ : Type} [SettingsHost σ]

def programSteps : List (List Char) → ModalState → σ → List (ProgramStep σ)
  | [], _, _ => []
  | line :: lines, state, settings =>
    let outcome := execute line state settings
    ⟨line, state, settings⟩ :: programSteps lines outcome.state outcome.settings

theorem map_outcome_programSteps (lines : List (List Char)) (state : ModalState) (settings : σ) :
    (programSteps lines state settings).map ProgramStep.outcome =
      executeAll lines state settings := by
  induction lines generalizing state settings with
  | nil => rfl
  | cons line lines ih =>
      simp only [programSteps, List.map_cons, executeAll, ih]
      rfl

theorem requests_programSteps (lines : List (List Char)) (state : ModalState) (settings : σ) :
    (executeProgram lines state settings).requests =
      (programSteps lines state settings).flatMap fun step => step.outcome.requests := by
  rw [requests_executeProgram, ← map_outcome_programSteps, List.flatMap_map]

theorem programSteps_invariant {P : ModalState → Prop}
    (kept : ∀ step : ProgramStep σ, P step.state → P step.outcome.state)
    (lines : List (List Char)) {state : ModalState} (settings : σ) (start : P state) :
    (∀ step ∈ programSteps lines state settings, P step.state ∧ P step.outcome.state) ∧
      P (executeProgram lines state settings).state := by
  induction lines generalizing state settings with
  | nil => exact ⟨by simp [programSteps], start⟩
  | cons line lines ih =>
      have hfirst : P (execute line state settings).state := kept ⟨line, state, settings⟩ start
      obtain ⟨hsteps, hend⟩ := ih (execute line state settings).settings hfirst
      refine ⟨fun step hstep => ?_, hend⟩
      rcases List.mem_cons.1 hstep with rfl | hlater
      · exact ⟨start, hfirst⟩
      · exact hsteps step hlater

theorem mmPerInch_of_mem_programSteps {lines : List (List Char)} {state : ModalState}
    {settings : σ} {step : ProgramStep σ} (hstep : step ∈ programSteps lines state settings) :
    step.outcome.state.mmPerInch = state.mmPerInch := by
  exact ((programSteps_invariant (P := fun current => current.mmPerInch = state.mmPerInch)
    (fun earlier before => earlier.mmPerInch_outcome.trans before) lines settings rfl).1
      step hstep).2

theorem executeProgram_foldl {α : Type} (view : ModalState → α) (update : ProgramStep σ → α → α)
    (updated : ∀ step : ProgramStep σ, view step.outcome.state = update step (view step.state))
    (lines : List (List Char)) (state : ModalState) (settings : σ) :
    view (executeProgram lines state settings).state =
      (programSteps lines state settings).foldl (fun value step => update step value)
        (view state) := by
  induction lines generalizing state settings with
  | nil => rfl
  | cons line lines ih =>
      have hfirst : view (execute line state settings).state = _ := updated ⟨line, state, settings⟩
      simp only [executeProgram, programSteps, List.foldl_cons, ih, hfirst]

theorem executeProgram_lastWrite {α : Type} (view : ModalState → α)
    (write? : ProgramStep σ → Option α)
    (written : ∀ step : ProgramStep σ,
      view step.outcome.state = (write? step).getD (view step.state))
    (lines : List (List Char)) (state : ModalState) (settings : σ) :
    view (executeProgram lines state settings).state =
      ((programSteps lines state settings).filterMap write?).getLast?.getD (view state) := by
  rw [executeProgram_foldl view (fun step value => (write? step).getD value) written,
    foldl_getD_eq_getLast?]

/-! ## Two programs in step -/

/-- Two programs whose lines match one by one have outcomes that match one by one, if the outcomes
of matching lines do, and if these leave related states and the same settings. -/
theorem executeAll_inStep {Alike : List Char → List Char → Prop}
    (Related : ModalState → ModalState → Prop) (Matches : Outcome σ → Outcome σ → Prop)
    (step : ∀ {line other state twin} (settings : σ), Alike line other → Related state twin →
      Matches (execute line state settings) (execute other twin settings))
    (next : ∀ {outcome twin : Outcome σ}, Matches outcome twin →
      Related outcome.state twin.state ∧ outcome.settings = twin.settings)
    {lines others : List (List Char)} (alike : List.Forall₂ Alike lines others)
    {state twin : ModalState} (start : Related state twin) (settings : σ) :
    List.Forall₂ Matches (executeAll lines state settings) (executeAll others twin settings) := by
  induction alike generalizing state twin settings with
  | nil => exact .nil
  | cons hline hlines ih =>
      have hfirst := step settings hline start
      obtain ⟨hstate, hsettings⟩ := next hfirst
      refine .cons hfirst ?_
      rw [← hsettings]
      exact ih hstate _

end Gcode
