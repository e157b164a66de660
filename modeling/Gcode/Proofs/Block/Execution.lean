import Gcode.Proofs.Block.Reading
import Gcode.Program

/-!
# Executing a block

A block either stops at its leftmost fault, or all of its words are read and the motion is planned
from what they say together.  One equation describes `executeBlock` in each case.  Planning fails
only for an arc whose radius fits no circle.
-/

namespace Gcode

/-! ## Lines of words -/

structure IsBlock (line : List Char) : Prop where
  noComment : line.head? ≠ some '('
  noSettings : line.head? ≠ some '$'

instance (line : List Char) : Decidable (IsBlock line) :=
  decidable_of_iff (line.head? ≠ some '(' ∧ line.head? ≠ some '$')
    ⟨fun h => ⟨h.1, h.2⟩, fun h => ⟨h.noComment, h.noSettings⟩⟩

theorem isComment_or_isSettings_or_isBlock (line : List Char) :
    (∃ rest, line = '(' :: rest) ∨ (∃ rest, line = '$' :: rest) ∨ IsBlock line := by
  by_cases hcomment : line.head? = some '('
  · exact .inl (List.head?_eq_some_iff.1 hcomment)
  by_cases hsettings : line.head? = some '$'
  · exact .inr (.inl (List.head?_eq_some_iff.1 hsettings))
  · exact .inr (.inr ⟨hcomment, hsettings⟩)

theorem execute_block {σ : Type} [SettingsHost σ] {line : List Char} (h : IsBlock line)
    (state : ModalState) (settings : σ) :
    execute line state settings =
      let (result, after) := executeBlock (withoutBlockDelete line) state
      ⟨{ after with status := .ofResult result }, settings, result.toOption.getD []⟩ := by
  unfold execute
  split
  · exact absurd rfl h.noComment
  · exact absurd rfl h.noSettings
  · rfl

theorem isBlock_of_scanned {line : List Char}
    (h : (scanWords (withoutBlockDelete line)).failure = none) : IsBlock line := by
  constructor <;> intro hhead <;> obtain ⟨rest, rfl⟩ := List.head?_eq_some_iff.1 hhead
  · rw [withoutBlockDelete.eq_def] at h
    simp [scanWords, scanWordsFrom_noLetter, isCommandLetter] at h
  · rw [withoutBlockDelete.eq_def] at h
    simp [scanWords, scanWordsFrom_noLetter, isCommandLetter] at h

theorem Faultless.isBlock {line : List Char} (h : Faultless (withoutBlockDelete line)) :
    IsBlock line :=
  isBlock_of_scanned h.scanned

/-! ## Planning -/

section

variable {α : Type} [Scalar α] {position target offset : Point α} {radius : Option α}
  {plane : Plane} {direction : Turn}

theorem arcBetween_isError_iff :
    (∃ failure, arcBetween position target offset radius plane direction = .error failure) ↔
      ∃ r, radius = some r ∧
        Scalar.isFinite (chordQuotient r (target.get plane.first - position.get plane.first)
          (target.get plane.second - position.get plane.second)) = false := by
  cases radius with
  | none => simp [arcBetween]
  | some r =>
      cases hfinite : Scalar.isFinite (chordQuotient r
        (target.get plane.first - position.get plane.first)
        (target.get plane.second - position.get plane.second)) <;>
        simp [arcBetween, centreByRadius, hfinite, bind, Except.bind, pure, Except.pure]

end

theorem planArc_isError_iff {state : ModalState} {parameters : Parameters} {direction : Turn} :
    (∃ error, planArc state parameters direction = .error error) ↔
      ∃ failure, arcBetween state.position parameters.target parameters.offset parameters.radius
        state.plane direction = .error failure := by
  unfold planArc
  split <;> simp_all

theorem planArc_error_status {state : ModalState} {parameters : Parameters} {direction : Turn}
    {error : LineError} (h : planArc state parameters direction = .error error) :
    error.status = .floatingPointError := by
  unfold planArc at h
  split at h <;> cases h
  rfl

theorem planBlock_error_status {state : ModalState} {action : BlockAction}
    {parameters : Parameters} {error : LineError}
    (h : planBlock state action parameters = .error error) :
    error.status = .floatingPointError := by
  unfold planBlock at h
  split at h
  · contradiction
  · contradiction
  · split at h
    all_goals first | contradiction | exact planArc_error_status h

def MotionMode.IsArc (mode : MotionMode) : Prop :=
  mode = .arcClockwise ∨ mode = .arcCounterclockwise

theorem planBlock_isError_iff {state : ModalState} {action : BlockAction}
    {parameters : Parameters} :
    (∃ error, planBlock state action parameters = .error error) ↔
      action = .motion ∧ state.motionMode.IsArc ∧ ∃ r, parameters.radius = some r ∧
        (chordQuotient r
          (parameters.target.get state.plane.first - state.position.get state.plane.first)
          (parameters.target.get state.plane.second -
            state.position.get state.plane.second)).isFinite = false := by
  cases action with
  | dwell => simp [planBlock]
  | goHome => simp [planBlock]
  | motion =>
      cases hmode : state.motionMode with
      | cancel | rapidLinear | linear => simp [planBlock, hmode, MotionMode.IsArc]
      | arcClockwise | arcCounterclockwise =>
          simp only [planBlock, hmode, planArc_isError_iff, arcBetween_isError_iff,
            MotionMode.IsArc]
          simp [Scalar.isFinite]

/-! ## Whole blocks -/

def ModalState.afterWords (state : ModalState) (words : List Word) : ModalState :=
  (state.afterCommands words).afterParameters words

/-! A word `G53` leaves nothing in the state, so it need not be the same in two lines that do. -/

section

variable {left right : List Word}
  (same : ∀ slot, slot ≠ .absoluteOverride → lastWord? slot left = lastWord? slot right)

include same

theorem ModalState.afterCommands_congr (state : ModalState) :
    state.afterCommands left = state.afterCommands right := by
  simp (disch := decide) only [afterCommands, lastG?, lastM?, same]

theorem ModalState.afterWords_congr (state : ModalState) :
    state.afterWords left = state.afterWords right := by
  rw [afterWords, afterWords, afterCommands_congr same]
  simp (disch := decide) only [afterParameters, same]

end

def Parameters.ofBlock (state : ModalState) (words : List Word) : Parameters :=
  let modes := state.afterCommands words
  .ofWords modes (modes.absoluteMode || (BlockModifiers.ofWords words).absoluteOverride) words

def plannedMotion (state : ModalState) (words : List Word) : Except LineError Motion :=
  planBlock (state.afterWords words) (BlockModifiers.ofWords words).action (.ofBlock state words)

theorem executeBlock_of_fault {text : List Char} {column : Nat} {fault : WordFault}
    (h : leftmostFault? text = some (column, fault)) (state : ModalState) :
    executeBlock text state = (.error (fault.error column),
      state.afterCommands ((wordsOf text).takeWhile Word.isSupported)) := by
  rw [executeBlock, readCommands_of_fault h]

theorem executeBlock_of_faultless {text : List Char} (h : Faultless text) (state : ModalState) :
    executeBlock text state =
      match plannedMotion state (wordsOf text) with
      | .error error => (.error error, state.afterWords (wordsOf text))
      | .ok motion =>
        (.ok (blockRequests (state.afterWords (wordsOf text)) motion),
          { state.afterWords (wordsOf text) with
            position := (Parameters.ofBlock state (wordsOf text)).target }) := by
  rw [executeBlock, readCommands_of_faultless h]
  simp only [readParameters_eq, h.scanned]
  rfl

end Gcode
