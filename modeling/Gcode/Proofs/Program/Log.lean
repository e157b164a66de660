import Gcode.Proofs.Program.Steps
import Gcode.Settings.Config
import Gcode.Settings.Live

/-!
# The log of a program

Each block that succeeds adds one chunk to the requests of its program, and no other line adds
anything.  A chunk tells the spindle what the state says about it and then carries out one motion,
which ends where the state says the machine is.  So the last thing the spindle was told is what the
last successful block left in the state, whatever later lines that failed wrote there.
-/

namespace Gcode

inductive SpindleRequest (state : ModalState) : Request → Prop
  | stop (off : state.spindleDirection = .off) : SpindleRequest state .spindleStop
  | run (on : state.spindleDirection ≠ .off) :
      SpindleRequest state (.spindleRun state.spindleDirection state.spindleSpeed)

/-- The requests carry out the motion of a line that leaves the machine in a state. -/
inductive MotionRequests (action : BlockAction) (after : ModalState) : List Request → Prop
  | goHome (chosen : action = .goHome) : MotionRequests action after [.goHome]
  | dwell (chosen : action = .dwell) (milliseconds : UInt32) :
      MotionRequests action after [.dwell milliseconds]
  | idle (chosen : action = .motion) (mode : after.motionMode = .cancel) :
      MotionRequests action after []
  | line (chosen : action = .motion)
      (mode : after.motionMode = .rapidLinear ∨ after.motionMode = .linear) (feed : Feed) :
      MotionRequests action after [.line after.position feed]
  | arc (chosen : action = .motion) (mode : after.motionMode.IsArc) (helix : Helix Float)
      (feed : Feed) : MotionRequests action after [.arc helix feed, .line after.position feed]

inductive Chunk (action : BlockAction) (after : ModalState) : List Request → Prop
  | mk {spindle : Request} {motion : List Request} (told : SpindleRequest after spindle)
      (moved : MotionRequests action after motion) : Chunk action after (spindle :: motion)

def lastSpindleRequest? (log : List Request) : Option Request :=
  (log.filter Request.isSpindle).getLast?

/-! ## One chunk -/

theorem spindleRequest_agrees (state : ModalState) :
    SpindleRequest state (spindleRequest state) := by
  unfold spindleRequest
  split
  · next hoff => exact .stop hoff
  · next hon => exact .run hon

theorem motionRequests_of_planned {state after : ModalState} {action : BlockAction}
    {parameters : Parameters} {motion : Motion}
    (planned : planBlock state action parameters = .ok motion)
    (mode : after.motionMode = state.motionMode) (position : after.position = parameters.target) :
    MotionRequests action after motion.requests := by
  rcases planBlock_ok planned with ⟨rfl, rfl⟩ | ⟨rfl, rfl⟩ | ⟨rfl, hmode, rfl⟩ | ⟨rfl, hmode, rfl⟩ |
    ⟨rfl, hmode, _, _, -, rfl⟩
  · exact .goHome rfl
  · exact .dwell rfl _
  · exact .idle rfl (mode.trans hmode)
  · rw [Motion.requests, ← position]
    exact .line rfl (by rwa [mode]) _
  · rw [Motion.requests, ← position]
    exact .arc rfl (by rwa [mode]) _ _

theorem MotionRequests.not_isSpindle {action : BlockAction} {after : ModalState}
    {motion : List Request} (h : MotionRequests action after motion) :
    ∀ request ∈ motion, ¬ request.isSpindle = true := by
  cases h <;> simp [Request.isSpindle]

theorem SpindleRequest.isSpindle {state : ModalState} {request : Request}
    (h : SpindleRequest state request) : request.isSpindle = true := by
  cases h <;> rfl

theorem Chunk.filter_isSpindle {action : BlockAction} {after : ModalState}
    {requests : List Request} (h : Chunk action after requests) :
    ∃ request, SpindleRequest after request ∧ requests.filter Request.isSpindle = [request] := by
  obtain ⟨told, moved⟩ := h
  refine ⟨_, told, ?_⟩
  rw [List.filter_cons_of_pos told.isSpindle, List.filter_eq_nil_iff.2 moved.not_isSpindle]

/-! ## The whole log -/

variable {σ : Type} [SettingsHost σ]

theorem ProgramStep.requests_of_not_succeeds {step : ProgramStep σ} (h : ¬ step.Succeeds) :
    step.outcome.requests = [] :=
  (step.lineEffect.still_of_failed h).1

theorem ProgramStep.Succeeds.chunk {step : ProgramStep σ} (h : step.Succeeds) :
    Chunk (BlockModifiers.ofWords (blockWords step.line)).action step.outcome.state
      step.outcome.requests := by
  obtain ⟨motion, -, planned, houtcome⟩ := step.lineEffect.of_succeeded h.1 h.2
  rw [houtcome]
  exact .mk (spindleRequest_agrees _) (motionRequests_of_planned planned rfl rfl)

theorem flatMap_filter_of_eq_nil {α β : Type} (keep : α → Bool) (f : α → List β)
    (items : List α) (h : ∀ item, keep item = false → f item = []) :
    (items.filter keep).flatMap f = items.flatMap f := by
  induction items with
  | nil => rfl
  | cons item items ih =>
      cases hkeep : keep item with
      | true => simp [hkeep, ih]
      | false => simp [hkeep, ih, h item hkeep]

/-- The log of a program.  As the lines so far are a program too, the last part holds after each
line. -/
theorem executeProgram_log (lines : List (List Char)) (state : ModalState) (settings : σ) :
    let log := (executeProgram lines state settings).requests
    let successes := (programSteps lines state settings).filter fun step => step.Succeeds
    log = successes.flatMap (fun step => step.outcome.requests) ∧
      (∀ step ∈ successes,
        Chunk (BlockModifiers.ofWords (blockWords step.line)).action step.outcome.state
          step.outcome.requests) ∧
      (∀ step, successes.getLast? = some step →
        ∃ request, lastSpindleRequest? log = some request ∧
          SpindleRequest step.outcome.state request) := by
  intro log successes
  have hlog : log = successes.flatMap fun step => step.outcome.requests := by
    rw [flatMap_filter_of_eq_nil]
    · exact requests_programSteps lines state settings
    · intro step hfailed
      exact step.requests_of_not_succeeds (of_decide_eq_false hfailed)
  have hchunk : ∀ step ∈ successes, step.Succeeds := by
    intro step hstep
    exact of_decide_eq_true (List.mem_filter.1 hstep).2
  refine ⟨hlog, fun step hstep => (hchunk step hstep).chunk, fun step hlast => ?_⟩
  have hsucceeds : step.Succeeds := hchunk step (List.mem_of_getLast? hlast)
  obtain ⟨request, told, hrequest⟩ := hsucceeds.chunk.filter_isSpindle
  obtain ⟨earlier, hsuccesses⟩ := List.getLast?_eq_some_iff.1 hlast
  refine ⟨request, ?_, told⟩
  rw [hlog, hsuccesses, lastSpindleRequest?]
  simp [hrequest]

theorem executeProgram_log_untoldSpindle :
    let program := ["M3S500G1X10".toList, "M5G200".toList, "M4S9G2X90R1".toList]
    let outcome := executeProgram program (.initial (.ofConfig .standard))
      (LiveSettings.unsaved .standard .empty)
    lastSpindleRequest? outcome.requests = some (.spindleRun .clockwise 500) ∧
      outcome.state.spindleDirection = .counterclockwise ∧ outcome.state.spindleSpeed = 9 := by
  intro program outcome
  obtain ⟨-, -, hlast⟩ := executeProgram_log program (.initial (.ofConfig .standard))
    (LiveSettings.unsaved .standard .empty)
  have hspindle : ((programSteps program (.initial (.ofConfig .standard))
      (LiveSettings.unsaved .standard .empty)).filter fun step => step.Succeeds).map
        (fun step => (step.outcome.state.spindleDirection, step.outcome.state.spindleSpeed)) =
      [(.clockwise, 500)] := by decide +kernel
  obtain ⟨step, hsteps, hfields⟩ := List.map_eq_singleton_iff.1 hspindle
  obtain ⟨hdirection, hspeed⟩ := Prod.mk.inj hfields
  obtain ⟨request, hrequest, told⟩ := hlast step (by rw [hsteps]; rfl)
  refine ⟨?_, by decide +kernel, by decide +kernel⟩
  cases told with
  | stop off =>
      rw [hdirection] at off
      contradiction
  | run on => rw [hrequest, hdirection, hspeed]

end Gcode
