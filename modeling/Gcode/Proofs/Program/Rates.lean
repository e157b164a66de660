import Gcode.Proofs.Program.Steps
import Gcode.Settings.Config
import Gcode.Settings.Live

/-!
# The rates over a program

The feed rate comes from the last line that set it.  A line sets it if its commands are read without
an error, if it has a word `F`, and if its moves are not timed one by one; that its arc may turn out
to be impossible does not matter.  Where moves are timed, a word `F` is the time of its own line and
of no other.  The speed of the spindle comes from the last line with a word `S` in the same way.
-/

namespace Gcode

def Request.feed? : Request → Option Feed
  | line _ feed => some feed
  | arc _ feed => some feed
  | _ => none

theorem feed_of_mem_blockRequests {state : ModalState} {action : BlockAction}
    {parameters : Parameters} {motion : Motion} {request : Request} {feed : Feed}
    (planned : planBlock state action parameters = .ok motion)
    (issued : request ∈ blockRequests state motion) (moves : request.feed? = some feed) :
    feed = blockFeed state parameters := by
  rcases List.mem_cons.1 issued with rfl | hmotion
  · unfold spindleRequest at moves
    split at moves <;> cases moves
  · rcases planBlock_ok planned with ⟨-, rfl⟩ | ⟨-, rfl⟩ | ⟨-, -, rfl⟩ | ⟨-, -, rfl⟩ |
      ⟨-, -, _, _, -, rfl⟩
    · obtain rfl := List.mem_singleton.1 hmotion
      cases moves
    · obtain rfl := List.mem_singleton.1 hmotion
      cases moves
    · contradiction
    · obtain rfl := List.mem_singleton.1 hmotion
      exact (Option.some.inj moves).symm
    · rcases List.mem_cons.1 hmotion with rfl | hline
      · exact (Option.some.inj moves).symm
      · obtain rfl := List.mem_singleton.1 hline
        exact (Option.some.inj moves).symm

variable {σ : Type} [SettingsHost σ]

theorem LineEffect.rates_of_not_faultless {line : List Char} {state : ModalState} {settings : σ}
    {outcome : Outcome σ} (effect : LineEffect line state settings outcome)
    (faulty : ¬ Faultless (withoutBlockDelete line)) :
    outcome.state.feedRate = state.feedRate ∧
      outcome.state.spindleSpeed = state.spindleSpeed := by
  cases effect with
  | comment | statement | fault => exact ⟨rfl, rfl⟩
  | impossible faultless | success faultless => exact absurd faultless faulty

namespace ProgramStep

def newFeedRate? (step : ProgramStep σ) : Option Float :=
  if step.readsCommands && !step.outcome.state.inverseFeedRateMode then
    (lastWord? .feed (blockWords step.line)).map
      fun word => word.millimeters step.outcome.state / 60
  else none

def newSpindleSpeed? (step : ProgramStep σ) : Option Int32 :=
  if step.readsCommands then
    (lastWord? .spindleSpeed (blockWords step.line)).map fun word => speedOf word.value
  else none

def moveFeed (step : ProgramStep σ) : Feed :=
  if step.outcome.state.inverseFeedRateMode then
    .inverseTime ((lastWord? .feed (blockWords step.line)).map
      fun word => word.millimeters step.outcome.state)
  else .unitsPerSecond step.outcome.state.feedRate

theorem feedRate_outcome (step : ProgramStep σ) :
    step.outcome.state.feedRate = step.newFeedRate?.getD step.state.feedRate := by
  unfold newFeedRate?
  by_cases hreads : step.readsCommands = true
  · rw [step.lineEffect.state_of_faultless (step.readsCommands_iff.1 hreads)]
    simp only [hreads, Bool.true_and, ModalState.afterWords, ModalState.afterParameters]
    -- what a word `F` means depends on the feed mode after the commands of its line
    cases (step.state.afterCommands (blockWords step.line)).inverseFeedRateMode with
    | true => rfl
    | false =>
        cases lastWord? .feed (blockWords step.line) with
        | none =>
            rw [Option.map_none, Option.map_none]
            rfl
        | some word =>
            simp only [ModalState.inMillimeters_value]
            exact congrArg perSecond (Word.millimeters_congr rfl rfl word)
  · have hfaulty : ¬ Faultless (withoutBlockDelete step.line) := by
      rwa [← step.readsCommands_iff]
    simp only [hreads, Bool.false_and]
    exact (step.lineEffect.rates_of_not_faultless hfaulty).1

theorem spindleSpeed_outcome (step : ProgramStep σ) :
    step.outcome.state.spindleSpeed = step.newSpindleSpeed?.getD step.state.spindleSpeed := by
  unfold newSpindleSpeed?
  by_cases hreads : step.readsCommands = true
  · rw [step.lineEffect.state_of_faultless (step.readsCommands_iff.1 hreads), if_pos hreads]
    rfl
  · have hfaulty : ¬ Faultless (withoutBlockDelete step.line) := by
      rwa [← step.readsCommands_iff]
    rw [if_neg hreads]
    exact (step.lineEffect.rates_of_not_faultless hfaulty).2

theorem moveFeed_of_succeeds {step : ProgramStep σ} (succeeds : step.Succeeds) :
    step.moveFeed = blockFeed (step.state.afterWords (blockWords step.line))
      (.ofBlock step.state (blockWords step.line)) := by
  obtain ⟨motion, -, -, houtcome⟩ := step.lineEffect.of_succeeded succeeds.1 succeeds.2
  unfold moveFeed blockFeed Parameters.ofBlock Parameters.ofWords ModalState.afterWords
  rw [houtcome]
  simp only [ModalState.lastLength?, ModalState.inMillimeters_value, ModalState.afterWords,
    ModalState.afterParameters]
  cases (step.state.afterCommands (blockWords step.line)).inverseFeedRateMode with
  | true => rfl
  | false => rfl

theorem feed_of_mem_requests {step : ProgramStep σ} {request : Request} {feed : Feed}
    (issued : request ∈ step.outcome.requests) (moves : request.feed? = some feed) :
    feed = step.moveFeed := by
  by_cases hsucceeds : step.Succeeds
  · obtain ⟨motion, -, planned, houtcome⟩ :=
      step.lineEffect.of_succeeded hsucceeds.1 hsucceeds.2
    rw [houtcome] at issued
    rw [moveFeed_of_succeeds hsucceeds]
    exact feed_of_mem_blockRequests planned issued moves
  · rw [(step.lineEffect.still_of_failed hsucceeds).1] at issued
    contradiction

end ProgramStep

/-- Where the rates over a program come from.  As the lines so far are a program too, the first two
parts hold after each line.  The modes after a line are those after its commands. -/
theorem executeProgram_rates (lines : List (List Char)) (state : ModalState) (settings : σ) :
    let steps := programSteps lines state settings
    let final := (executeProgram lines state settings).state
    final.feedRate = (steps.filterMap ProgramStep.newFeedRate?).getLast?.getD state.feedRate ∧
      final.spindleSpeed =
        (steps.filterMap ProgramStep.newSpindleSpeed?).getLast?.getD state.spindleSpeed ∧
      ∀ step ∈ steps,
        (∀ request ∈ step.outcome.requests, ∀ feed, request.feed? = some feed →
          feed = step.moveFeed) ∧
        (step.outcome.state.inverseFeedRateMode = true →
          step.outcome.state.feedRate = step.state.feedRate) ∧
        step.outcome.state.mmPerInch = state.mmPerInch ∧
        step.outcome.state.units =
          ((lastG? .units (commandWords step.line)).bind GCode.units?).getD step.state.units ∧
        step.outcome.state.inverseFeedRateMode =
          ((lastG? .feedMode (commandWords step.line)).bind GCode.inverseFeedRateMode?).getD
            step.state.inverseFeedRateMode := by
  intro steps final
  refine ⟨executeProgram_lastWrite ModalState.feedRate _ ProgramStep.feedRate_outcome lines state
      settings,
    executeProgram_lastWrite ModalState.spindleSpeed _ ProgramStep.spindleSpeed_outcome lines state
      settings,
    fun step hstep => ⟨?_, ?_, mmPerInch_of_mem_programSteps hstep, step.units_outcome, ?_⟩⟩
  · intro request issued feed moves
    exact step.feed_of_mem_requests issued moves
  · intro hinverse
    rw [step.feedRate_outcome, ProgramStep.newFeedRate?, hinverse]
    simp
  · rw [step.lineEffect.state_eq]
    rfl

theorem executeProgram_rates_impossibleArc :
    let initial := ModalState.initial (.ofConfig .standard)
    let settings := LiveSettings.unsaved .standard .empty
    let outcome := executeProgram ["F10G20S7G2X90R1".toList, "F99S8X".toList]
      initial settings
    outcome.state.feedRate = 10 * 25.4 / 60 ∧ outcome.state.spindleSpeed = 7 ∧
      ∀ request ∈ (executeProgram ["F2G93".toList] initial settings).requests, ∀ feed,
        request.feed? = some feed → feed.isInverseTime = true ∧ feed.rate = 2 := by
  intro initial settings outcome
  have hrates := executeProgram_rates ["F10G20S7G2X90R1".toList, "F99S8X".toList] initial settings
  refine ⟨hrates.1.trans ?_, hrates.2.1.trans ?_, fun request issued feed moves => ?_⟩
  · decide +kernel
  · decide +kernel
  · have hline := (executeProgram_rates ["F2G93".toList] initial settings).2.2
      ⟨"F2G93".toList, initial, settings⟩ (List.mem_singleton.2 rfl)
    have hissued : request ∈ (execute "F2G93".toList initial settings).requests := by
      rwa [requests_programSteps, programSteps, programSteps, List.flatMap_singleton] at issued
    rw [hline.1 request hissued feed moves]
    decide +kernel

end Gcode
