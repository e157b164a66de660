import Gcode.Proofs.Block.Execution

/-!
# What a line can do

`LineEffect` lists the five things that executing a line can come to, each with the whole outcome:
comments and settings statements, blocks with a failing word, blocks that ask for an impossible arc,
and blocks that succeed.  `execute_lineEffect` shows that there are no others.  What a program does
is derived from this list, line by line.
-/

namespace Gcode

def blockWords (line : List Char) : List Word := wordsOf (withoutBlockDelete line)

/-- The words of a line whose commands count: those before the first that is not supported. -/
def commandWords (line : List Char) : List Word := (blockWords line).takeWhile Word.isSupported

theorem WordFault.status_ne_ok (fault : WordFault) : fault.status ≠ .ok := by
  cases fault <;> simp [status]

theorem Faultless.commandWords {line : List Char} (h : Faultless (withoutBlockDelete line)) :
    commandWords line = blockWords line :=
  h.takeWhile_isSupported

theorem wordsOf_of_noLetter {letter : Char} (h : isCommandLetter letter = false)
    (rest : List Char) : wordsOf (letter :: rest) = [] := by
  simp [wordsOf, scanWords, scanWordsFrom_noLetter, h]

theorem commandWords_of_not_isBlock {line : List Char} (h : ¬ IsBlock line) :
    commandWords line = [] := by
  have hwords : blockWords line = [] := by
    rcases isComment_or_isSettings_or_isBlock line with ⟨rest, rfl⟩ | ⟨rest, rfl⟩ | hblock
    · exact wordsOf_of_noLetter (by decide) rest
    · exact wordsOf_of_noLetter (by decide) rest
    · exact absurd hblock h
  rw [Gcode.commandWords, hwords, List.takeWhile_nil]

theorem readCommands_isOk_iff (text : List Char) (state : ModalState) :
    (readCommands text state).1.isOk = true ↔ Faultless text := by
  rw [← leftmostFault?_eq_none_iff]
  cases hfault : leftmostFault? text with
  | none =>
      rw [readCommands_of_faultless (leftmostFault?_eq_none_iff.1 hfault)]
      simp [Except.isOk, Except.toBool]
  | some located =>
      rw [readCommands_of_fault hfault]
      simp [Except.isOk, Except.toBool]

theorem StatusCode.ofResult_error {α : Type} (error : LineError) :
    StatusCode.ofResult (.error error : Except LineError α) = error.status := rfl

/-! ## Motions -/

theorem planArc_ok {state : ModalState} {parameters : Parameters} {direction : Turn}
    {motion : Motion} (h : planArc state parameters direction = .ok motion) :
    ∃ arc, arcBetween state.position parameters.target parameters.offset parameters.radius
        state.plane direction = .ok arc ∧
      motion = .arc arc.helix (blockFeed state parameters) parameters.target := by
  unfold planArc at h
  split at h
  · contradiction
  · next arc solved => exact ⟨arc, solved, (Except.ok.inj h).symm⟩

theorem planBlock_ok {state : ModalState} {action : BlockAction} {parameters : Parameters}
    {motion : Motion} (h : planBlock state action parameters = .ok motion) :
    (action = .goHome ∧ motion = .goHome) ∨
    (action = .dwell ∧ motion = .dwell (millisecondsOf parameters.dwell)) ∨
    (action = .motion ∧ state.motionMode = .cancel ∧ motion = .idle) ∨
    (action = .motion ∧ (state.motionMode = .rapidLinear ∨ state.motionMode = .linear) ∧
      motion = .line parameters.target (blockFeed state parameters)) ∨
    (action = .motion ∧ state.motionMode.IsArc ∧ ∃ direction arc,
      arcBetween state.position parameters.target parameters.offset parameters.radius
        state.plane direction = .ok arc ∧
      motion = .arc arc.helix (blockFeed state parameters) parameters.target) := by
  unfold planBlock at h
  cases action with
  | goHome => exact .inl ⟨rfl, (Except.ok.inj h).symm⟩
  | dwell => exact .inr (.inl ⟨rfl, (Except.ok.inj h).symm⟩)
  | motion =>
      refine .inr (.inr ?_)
      cases hmode : state.motionMode with
      | cancel =>
          rw [hmode] at h
          exact .inl ⟨rfl, rfl, (Except.ok.inj h).symm⟩
      | rapidLinear =>
          rw [hmode] at h
          exact .inr (.inl ⟨rfl, .inl rfl, (Except.ok.inj h).symm⟩)
      | linear =>
          rw [hmode] at h
          exact .inr (.inl ⟨rfl, .inr rfl, (Except.ok.inj h).symm⟩)
      | arcClockwise =>
          rw [hmode] at h
          exact .inr (.inr ⟨rfl, .inl rfl, _, planArc_ok h⟩)
      | arcCounterclockwise =>
          rw [hmode] at h
          exact .inr (.inr ⟨rfl, .inr rfl, _, planArc_ok h⟩)

/-! ## Lines -/

section

variable {σ : Type} [SettingsHost σ]

inductive LineEffect (line : List Char) (state : ModalState) (settings : σ) : Outcome σ → Prop
  | comment (start : line.head? = some '(') :
      LineEffect line state settings ⟨{ state with status := .ok }, settings, []⟩
  | statement (start : line.head? = some '$') :
      LineEffect line state settings
        ⟨{ state with status := .ofResult (executeSettings line settings).1 },
          (executeSettings line settings).2, []⟩
  | fault {column : Nat} {fault : WordFault} (block : IsBlock line)
      (found : leftmostFault? (withoutBlockDelete line) = some (column, fault)) :
      LineEffect line state settings
        ⟨{ state.afterCommands (commandWords line) with status := fault.status }, settings, []⟩
  | impossible {error : LineError} (faultless : Faultless (withoutBlockDelete line))
      (planned : plannedMotion state (blockWords line) = .error error) :
      LineEffect line state settings
        ⟨{ state.afterWords (blockWords line) with status := .floatingPointError }, settings, []⟩
  | success {motion : Motion} (faultless : Faultless (withoutBlockDelete line))
      (planned : plannedMotion state (blockWords line) = .ok motion) :
      LineEffect line state settings
        ⟨{ state.afterWords (blockWords line) with
            position := (Parameters.ofBlock state (blockWords line)).target
            status := .ok },
          settings, blockRequests (state.afterWords (blockWords line)) motion⟩

theorem execute_lineEffect (line : List Char) (state : ModalState) (settings : σ) :
    LineEffect line state settings (execute line state settings) := by
  rcases isComment_or_isSettings_or_isBlock line with ⟨rest, rfl⟩ | ⟨rest, rfl⟩ | hblock
  · exact .comment rfl
  · exact .statement rfl
  · rw [execute_block hblock]
    cases hfault : leftmostFault? (withoutBlockDelete line) with
    | some located =>
        obtain ⟨column, fault⟩ := located
        rw [executeBlock_of_fault hfault]
        simp only [StatusCode.ofResult_error, fault.status_error]
        exact .fault hblock hfault
    | none =>
        have hfaultless := leftmostFault?_eq_none_iff.1 hfault
        rw [executeBlock_of_faultless hfaultless]
        -- all words are read by now, so only the planning can still fail
        cases hplan : plannedMotion state (wordsOf (withoutBlockDelete line)) with
        | error error =>
            simp only [StatusCode.ofResult_error, planBlock_error_status hplan]
            exact .impossible hfaultless hplan
        | ok motion => exact .success hfaultless hplan

namespace LineEffect

variable {line : List Char} {state : ModalState} {settings : σ} {outcome : Outcome σ}

theorem still_of_failed (effect : LineEffect line state settings outcome)
    (failed : ¬ (IsBlock line ∧ outcome.status = .ok)) :
    outcome.requests = [] ∧ outcome.state.position = state.position := by
  cases effect with
  | comment | statement | fault | impossible => exact ⟨rfl, rfl⟩
  | success faultless => exact absurd ⟨faultless.isBlock, rfl⟩ failed

theorem of_succeeded (effect : LineEffect line state settings outcome) (block : IsBlock line)
    (succeeded : outcome.status = .ok) :
    ∃ motion, Faultless (withoutBlockDelete line) ∧
      plannedMotion state (blockWords line) = .ok motion ∧
      outcome = ⟨{ state.afterWords (blockWords line) with
          position := (Parameters.ofBlock state (blockWords line)).target
          status := .ok },
        settings, blockRequests (state.afterWords (blockWords line)) motion⟩ := by
  cases effect with
  | comment start => exact absurd start block.noComment
  | statement start => exact absurd start block.noSettings
  | @fault column fault => exact absurd succeeded fault.status_ne_ok
  | impossible => exact absurd succeeded (by simp [Outcome.status])
  | success faultless planned => exact ⟨_, faultless, planned, rfl⟩

theorem state_eq (effect : LineEffect line state settings outcome) :
    outcome.state = { state.afterCommands (commandWords line) with
      feedRate := outcome.state.feedRate
      spindleSpeed := outcome.state.spindleSpeed
      position := outcome.state.position
      status := outcome.state.status } := by
  cases effect with
  | comment start =>
      rw [commandWords_of_not_isBlock fun block => block.noComment start]
      rfl
  | statement start =>
      rw [commandWords_of_not_isBlock fun block => block.noSettings start]
      rfl
  | fault => rfl
  | impossible faultless | success faultless =>
      rw [faultless.commandWords]
      rfl

theorem state_of_faultless (effect : LineEffect line state settings outcome)
    (faultless : Faultless (withoutBlockDelete line)) :
    outcome.state = { state.afterWords (blockWords line) with
      position := outcome.state.position
      status := outcome.state.status } := by
  cases effect with
  | comment start => exact absurd start faultless.isBlock.noComment
  | statement start => exact absurd start faultless.isBlock.noSettings
  | fault block found =>
      rw [leftmostFault?_eq_none_iff.2 faultless] at found
      contradiction
  | impossible | success => rfl

end LineEffect

end

end Gcode
