import Gcode.Proofs.Double.Arc
import Gcode.Proofs.Program.Finite

/-!
# What requests can hold

From a finite position, and with lengths that are finite, a line asks only for numbers, with one
exception: an arc by its offset is solved wherever its centre is, and a centre on the start or on
the target leaves a bearing undefined.  Nothing looks for that.
-/

namespace Gcode

open Kind

/-! ## Parameters of finite lengths -/

def FiniteLengths (state : ModalState) (words : List Word) : Prop :=
  ∀ word ∈ words, (Slot.ofWord? word).any Slot.isLength = true →
    (state.inMillimeters word.value).isFinite = true

instance (state : ModalState) (words : List Word) : Decidable (FiniteLengths state words) :=
  inferInstanceAs (Decidable (∀ word ∈ words, (Slot.ofWord? word).any Slot.isLength = true →
    (state.inMillimeters word.value).isFinite = true))

theorem FiniteLengths.of_lastWord? {state : ModalState} {words : List Word} {slot : Slot}
    {word : Word} (h : FiniteLengths state words) (length : slot.isLength = true)
    (last : lastWord? slot words = some word) :
    (state.inMillimeters word.value).isFinite = true := by
  have hmem := List.mem_filter.1 (List.mem_of_getLast? last)
  refine h word hmem.1 ?_
  rw [of_decide_eq_true hmem.2]
  exact length

theorem FiniteLengths.lastLength? {state : ModalState} {words : List Word} {slot : Slot}
    (h : FiniteLengths state words) (length : slot.isLength = true) :
    ∀ value, state.lastLength? slot words = some value → value.isFinite = true := by
  intro value hvalue
  obtain ⟨word, hword, rfl⟩ := Option.map_eq_some_iff.1 hvalue
  exact h.of_lastWord? length hword

theorem isNaN_perSecond {rate : Float} (h : rate.isFinite = true) :
    (perSecond rate).isNaN = false := by
  have hsixty : ofFloat 60 = nonzero false := by rfl
  rw [isNaN_eq_false_iff]
  rw [isFinite_eq] at h
  exact isNumber_quotient_of_nonzero hsixty (ofFloat_div rate 60) (isNumber_of_isFinite h)

theorem isFinite_getD {length : Option Float}
    (h : ∀ value, length = some value → value.isFinite = true) :
    (length.getD 0).isFinite = true := by
  cases length with
  | none => decide +kernel
  | some value => exact h value rfl

section

variable {state : ModalState} {words : List Word}

theorem isFinite_offset (h : FiniteLengths state words) (absolute : Bool) (axis : Axis) :
    ((Parameters.ofWords state absolute words).offset.get axis).isFinite = true := by
  cases axis <;> exact isFinite_getD (h.lastLength? rfl)

theorem isNumber_coordinateAfter (h : FiniteLengths state words)
    (position : state.position.IsFinite) (absolute : Bool) (axis : Axis) :
    (state.coordinateAfter absolute words axis).isNaN = false := by
  have hposition := position axis
  unfold ModalState.coordinateAfter
  rw [isNaN_eq_false_iff]
  rw [isFinite_eq] at hposition
  cases hlast : lastWord? (.coordinate axis) words with
  | none => exact isNumber_of_isFinite hposition
  | some word =>
      have hlength := h.of_lastWord? rfl hlast
      rw [isFinite_eq] at hlength
      cases absolute with
      | true => exact isNumber_of_isFinite hlength
      | false =>
          exact isNumber_sum_of_finite_left (ofFloat_add _ _) hposition
            (isNumber_of_isFinite hlength)

theorem isNumber_blockFeed (h : FiniteLengths state words) (rate : state.feedRate.isNaN = false)
    (absolute : Bool) :
    (blockFeed (state.afterParameters words) (.ofWords state absolute words)).rate.isNaN =
      false := by
  rw [blockFeed]
  cases hmode : (state.afterParameters words).inverseFeedRateMode with
  | true =>
      have hinverse : state.inverseFeedRateMode = true := hmode
      simp only [Parameters.ofWords, hinverse, if_true]
      cases hlength : state.lastLength? .feed words with
      | none => decide +kernel
      | some value => exact isNaN_of_isFinite (h.lastLength? rfl value hlength)
  | false =>
      have hminute : state.inverseFeedRateMode = false := hmode
      simp only [ModalState.afterParameters, hminute]
      cases hlast : lastWord? .feed words with
      | none => exact rate
      | some word => exact isNaN_perSecond (h.of_lastWord? rfl hlast)

end

/-! ## Arcs -/

/-- All that is asked for is a number, but for where an arc starts and how far it travels.  These
are taken from the bearings of its ends, and are numbers just if those bearings exist. -/
def Request.Defined (before after : ModalState) : Request → Prop
  | line target feed => (∀ axis, (target.get axis).isNaN = false) ∧ feed.rate.isNaN = false
  | arc helix feed =>
    feed.rate.isNaN = false ∧ ∃ offset direction,
      helix = (arcAround before.position after.position offset after.plane direction).helix ∧
        (arcAround before.position after.position offset after.plane direction).Defined
          before.position after.position after.plane direction
  | _ => True

theorem spindleRequest_defined (before after state : ModalState) :
    (spindleRequest state).Defined before after := by
  unfold spindleRequest
  split <;> trivial

variable {σ : Type} [SettingsHost σ]

theorem LineEffect.requests_defined {line : List Char} {state : ModalState} {settings : σ}
    {outcome : Outcome σ} (effect : LineEffect line state settings outcome)
    (position : state.position.IsFinite) (rate : state.feedRate.isNaN = false)
    (lengths : FiniteLengths (state.afterCommands (blockWords line)) (blockWords line)) :
    ∀ request ∈ outcome.requests, request.Defined state outcome.state := by
  cases effect with
  | comment | statement | fault | impossible => simp
  | @success motion faultless planned =>
      have hfeed : (blockFeed (state.afterWords (blockWords line))
          (.ofBlock state (blockWords line))).rate.isNaN = false :=
        isNumber_blockFeed lengths rate _
      have htarget : ∀ axis,
          ((Parameters.ofBlock state (blockWords line)).target.get axis).isNaN = false := by
        intro axis
        rw [Parameters.ofBlock, Parameters.target_ofWords]
        exact isNumber_coordinateAfter lengths position _ axis
      intro request hrequest
      rcases List.mem_cons.1 hrequest with rfl | hmotion
      · exact spindleRequest_defined ..
      rcases planBlock_ok planned with ⟨-, rfl⟩ | ⟨-, rfl⟩ | ⟨-, -, rfl⟩ | ⟨-, -, rfl⟩ |
        ⟨-, -, direction, arc, solved, rfl⟩
      · obtain rfl := List.mem_singleton.1 hmotion
        trivial
      · obtain rfl := List.mem_singleton.1 hmotion
        trivial
      · contradiction
      · obtain rfl := List.mem_singleton.1 hmotion
        exact ⟨htarget, hfeed⟩
      · rcases List.mem_cons.1 hmotion with rfl | hline
        · have hdefined : arc.Defined _ _ _ direction :=
            arcBetween_defined position htarget (isFinite_offset lengths _) solved
          have harc := (arcBetween_ok solved).1
          rw [harc] at hdefined
          exact ⟨hfeed, arc.offset, direction, congrArg CentredArc.helix harc, hdefined⟩
        · obtain rfl := List.mem_singleton.1 hline
          exact ⟨htarget, hfeed⟩

/-- From a finite position and with finite lengths, all that a line asks for is a number, but for
where an arc starts and how far it travels.  With a sound arctangent these are numbers exactly if
the bearings of the start, and of both ends, exist; and such a bearing is missing exactly where the
centre falls on the end of the arc, or infinitely far away on both axes. -/
theorem execute_requests_defined (line : List Char)
    {state : ModalState} (settings : σ) (position : state.position.IsFinite)
    (rate : state.feedRate.isNaN = false)
    (lengths : FiniteLengths (state.afterCommands (blockWords line)) (blockWords line)) :
    let outcome := execute line state settings
    ∀ request ∈ outcome.requests, request.Defined state outcome.state :=
  (execute_lineEffect line state settings).requests_defined position rate lengths

theorem execute_requests_defined_radius :
    let state := ModalState.initial (.ofConfig .standard)
    let line := "G3X10Y5R-8F300".toList
    let outcome := execute line state (LiveSettings.unsaved .standard .empty)
    state.position.IsFinite ∧ state.feedRate.isNaN = false ∧
      FiniteLengths (state.afterCommands (blockWords line)) (blockWords line) ∧
        outcome.status = .ok ∧
          ∀ request ∈ outcome.requests, request.Defined state outcome.state := by
  intro state line outcome
  have hposition : state.position.IsFinite := by decide +kernel
  have hrate : state.feedRate.isNaN = false := by decide +kernel
  have hlengths : FiniteLengths (state.afterCommands (blockWords line)) (blockWords line) := by
    decide +kernel
  exact ⟨hposition, hrate, hlengths, by decide +kernel,
    execute_requests_defined line (LiveSettings.unsaved .standard .empty) hposition hrate hlengths⟩

/-! ## Arcs by their offset -/

theorem LineEffect.of_planned {line : List Char} {state : ModalState} {settings : σ}
    {outcome : Outcome σ} {motion : Motion} (effect : LineEffect line state settings outcome)
    (faultless : Faultless (withoutBlockDelete line))
    (planned : plannedMotion state (blockWords line) = .ok motion) :
    outcome.status = .ok ∧
      outcome.requests = blockRequests (state.afterWords (blockWords line)) motion ∧
        outcome.state.position = (Parameters.ofBlock state (blockWords line)).target := by
  cases effect with
  | comment start => exact absurd start faultless.isBlock.noComment
  | statement start => exact absurd start faultless.isBlock.noSettings
  | fault block found =>
      rw [leftmostFault?_eq_none_iff.2 faultless] at found
      contradiction
  | impossible _ failed =>
      rw [planned] at failed
      contradiction
  | success _ succeeded =>
      obtain rfl := Except.ok.inj (planned.symm.trans succeeded)
      exact ⟨rfl, rfl, rfl⟩

/-- No line that asks for an arc without a radius is refused, wherever its centre is. -/
theorem execute_offsetArc {line : List Char} (state : ModalState) (settings : σ)
    (faultless : Faultless (withoutBlockDelete line))
    (moves : (BlockModifiers.ofWords (blockWords line)).action = .motion)
    (mode : (state.afterCommands (blockWords line)).motionMode.IsArc)
    (noRadius : lastWord? .radius (blockWords line) = none) :
    let outcome := execute line state settings
    outcome.status = .ok ∧ ∃ direction feed,
      Request.arc (arcAround state.position outcome.state.position
        (Parameters.ofBlock state (blockWords line)).offset
          (state.afterCommands (blockWords line)).plane direction).helix feed ∈
            outcome.requests := by
  intro outcome
  have hradius : (Parameters.ofBlock state (blockWords line)).radius = none := by
    simp [Parameters.ofBlock, Parameters.ofWords, ModalState.lastLength?, noRadius]
  have hplanned : ∃ direction, plannedMotion state (blockWords line) =
      planArc (state.afterWords (blockWords line)) (.ofBlock state (blockWords line))
        direction := by
    have hmode : (state.afterWords (blockWords line)).motionMode.IsArc := mode
    rw [plannedMotion, moves]
    rcases hmode with hclockwise | hcounterclockwise
    · exact ⟨.clockwise, by rw [planBlock, hclockwise]⟩
    · exact ⟨.counterclockwise, by rw [planBlock, hcounterclockwise]⟩
  obtain ⟨direction, hplanned⟩ := hplanned
  rw [planArc, hradius] at hplanned
  obtain ⟨hstatus, hrequests, hposition⟩ :=
    (execute_lineEffect line state settings).of_planned faultless hplanned
  refine ⟨hstatus, direction,
    blockFeed (state.afterWords (blockWords line)) (.ofBlock state (blockWords line)), ?_⟩
  simp only [outcome, hrequests, hposition]
  exact List.mem_cons_of_mem _ List.mem_cons_self

/-- Without an offset the centre of an arc is its start, and the bearing of the start is taken from
the quotient of two zeros.  With a sound arctangent neither it nor the travel is a number. -/
theorem execute_arcAroundStart :
    let state := ModalState.initial (.ofConfig .standard)
    let line := "G2X10".toList
    let outcome := execute line state (LiveSettings.unsaved .standard .empty)
    state.position.IsFinite ∧
      FiniteLengths (state.afterCommands (blockWords line)) (blockWords line) ∧
        outcome.status = .ok ∧
          ∃ helix feed, Request.arc helix feed ∈ outcome.requests ∧
            helix.startBearing = bearing (-0) (-0) ∧ ¬ (Arm.mk (-0) (-0)).HasBearing ∧
              (SoundArctangent → helix.startBearing.isNaN = true ∧ helix.travel.isNaN = true) := by
  intro state line outcome
  have hfaultless : Faultless (withoutBlockDelete line) :=
    leftmostFault?_eq_none_iff.1 (Option.isNone_iff_eq_none.1 (by decide +kernel))
  have hnone : ∀ slot ∈ [Slot.radius, .centre .x, .centre .y],
      lastWord? slot (blockWords line) = none := by
    decide +kernel
  obtain ⟨hstatus, direction, feed, harc⟩ := execute_offsetArc state
    (LiveSettings.unsaved .standard .empty) hfaultless (by decide +kernel)
    (.inl (by decide +kernel)) (hnone .radius (by simp))
  have hundirected : ¬ (Arm.mk (-0) (-0)).HasBearing := by
    rw [Arm.HasBearing]
    decide +kernel
  have hplane : (state.afterCommands (blockWords line)).plane = .xy := by decide +kernel
  have hstart : Arm.toStart (Parameters.ofBlock state (blockWords line)).offset
      (state.afterCommands (blockWords line)).plane = ⟨-0, -0⟩ := by
    simp only [Arm.toStart, hplane, Parameters.ofBlock, Parameters.ofWords, Point.get, Plane.xy,
      ModalState.lastLength?]
    rw [hnone _ (by simp), hnone _ (by simp)]
    rfl
  refine ⟨by decide +kernel, by decide +kernel, hstatus, _, feed, harc, ?_⟩
  rw [startBearing_arcAround, travel_arcAround, hstart]
  refine ⟨rfl, hundirected, fun arctangent => ⟨arctangent.isNaN_bearing hundirected, ?_⟩⟩
  exact Bool.of_not_eq_false fun hnumber =>
    hundirected (arctangent.isNaN_travelBetween_iff.1 hnumber).1

end Gcode
