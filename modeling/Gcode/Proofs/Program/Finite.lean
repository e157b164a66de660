import Gcode.Proofs.Double.Kind
import Gcode.Proofs.Double.Rounding
import Gcode.Proofs.Program.Log
import Gcode.Proofs.Program.Position

/-!
# Where the position stays finite

Coordinates are read as they are written, however large, and nothing checks what they add up to.  So
the position stays a point exactly as long as no coordinate overflows: as a number, as a length in
millimetres, or counted from where the axis stands.
-/

namespace Gcode

open Double

def Point.IsFinite (point : Point Float) : Prop :=
  ∀ axis, (point.get axis).isFinite = true

def SumOverflows (x y : Float) : Prop := overflowBound ≤ |exactValue x + exactValue y|

def ProductOverflows (x y : Float) : Prop := overflowBound ≤ |exactValue x * exactValue y|

theorem isFinite_add_iff_not_overflows {x y : Float} (start : x.isFinite = true) :
    (x + y).isFinite = true ↔ y.isFinite = true ∧ ¬ SumOverflows x y := by
  constructor
  · intro hsum
    have hy := (Kind.isFinite_of_add hsum).2
    exact ⟨hy, not_le.2 ((isFinite_add_iff start hy).1 hsum)⟩
  · rintro ⟨hy, hbelow⟩
    exact (isFinite_add_iff start hy).2 (not_le.1 hbelow)

theorem isFinite_mul_iff_not_overflows {x y : Float} (scale : y.isFinite = true) :
    (x * y).isFinite = true ↔ x.isFinite = true ∧ ¬ ProductOverflows x y := by
  constructor
  · intro hproduct
    have hx := (Kind.isFinite_of_mul hproduct).1
    exact ⟨hx, not_le.2 ((isFinite_mul_iff hx scale).1 hproduct)⟩
  · rintro ⟨hx, hbelow⟩
    exact (isFinite_mul_iff hx scale).2 (not_le.1 hbelow)

/-! ## One line -/

def Word.Overflows (word : Word) (state : ModalState) : Prop :=
  word.value.isFinite = false ∨
    state.units = .inches ∧ ProductOverflows word.value state.mmPerInch

theorem Word.isFinite_millimeters_iff (word : Word) {state : ModalState}
    (scale : state.mmPerInch.isFinite = true) :
    (word.millimeters state).isFinite = true ↔ ¬ word.Overflows state := by
  unfold Word.millimeters Word.Overflows
  cases state.units with
  | millimeters => simp
  | inches => simp [isFinite_mul_iff_not_overflows scale]

variable {σ : Type} [SettingsHost σ]

namespace ProgramStep

/-- The step takes an axis out of the range of doubles. -/
def Overflows (step : ProgramStep σ) (axis : Axis) : Prop :=
  step.Succeeds ∧ ∃ word, lastWord? (.coordinate axis) (blockWords step.line) = some word ∧
    (word.Overflows step.outcome.state ∨
      ¬ (step.outcome.state.absoluteMode = true ∨ HasOverride (blockWords step.line)) ∧
        SumOverflows (step.state.position.get axis) (word.millimeters step.outcome.state))

theorem isFinite_outcome_iff (step : ProgramStep σ) (axis : Axis)
    (start : (step.state.position.get axis).isFinite = true)
    (scale : step.state.mmPerInch.isFinite = true) :
    (step.outcome.state.position.get axis).isFinite = true ↔ ¬ step.Overflows axis := by
  rw [← step.mmPerInch_outcome] at scale
  rw [step.position_outcome axis, coordinate, Overflows]
  by_cases hsucceeds : step.Succeeds
  · rw [if_pos hsucceeds]
    cases lastWord? (.coordinate axis) (blockWords step.line) with
    | none => simp [start]
    | some word =>
        simp only [hsucceeds, true_and, Option.some.injEq, exists_eq_left']
        by_cases habsolute :
            step.outcome.state.absoluteMode = true ∨ HasOverride (blockWords step.line)
        · simp [habsolute, word.isFinite_millimeters_iff scale]
        · rw [if_neg habsolute, isFinite_add_iff_not_overflows start,
            word.isFinite_millimeters_iff scale]
          simp [habsolute]
  · simp [hsucceeds, start]

end ProgramStep

/-! ## Whole programs -/

theorem programSteps_isFinite_iff (lines : List (List Char)) {state : ModalState} (settings : σ)
    (start : state.position.IsFinite) (scale : state.mmPerInch.isFinite = true) :
    (∀ step ∈ programSteps lines state settings, step.outcome.state.position.IsFinite) ↔
      ∀ step ∈ programSteps lines state settings, ∀ axis, ¬ step.Overflows axis := by
  -- the scale never changes, and a finite position is all that the next line needs of this one
  induction lines generalizing state settings with
  | nil => simp [programSteps]
  | cons line lines ih =>
      let step : ProgramStep σ := ⟨line, state, settings⟩
      have hfirst : step.outcome.state.position.IsFinite ↔ ∀ axis, ¬ step.Overflows axis :=
        forall_congr' fun axis => step.isFinite_outcome_iff axis (start axis) scale
      simp only [programSteps, List.forall_mem_cons]
      refine Iff.trans (and_congr_right fun hfinite => ?_) (and_congr_left' hfirst)
      have hscale : step.outcome.state.mmPerInch.isFinite = true := by
        rwa [step.mmPerInch_outcome]
      exact ih _ hfinite hscale

theorem eq_position_of_mem_requests {step : ProgramStep σ} {target : Point Float} {feed : Feed}
    (h : Request.line target feed ∈ step.outcome.requests) :
    target = step.outcome.state.position := by
  by_cases hsucceeds : step.Succeeds
  · generalize hrequests : step.outcome.requests = requests at h
    have hchunk := hsucceeds.chunk
    rw [hrequests] at hchunk
    obtain ⟨told, moved⟩ := hchunk
    cases told <;> cases moved <;> simp_all
  · rw [step.requests_of_not_succeeds hsucceeds] at h
    contradiction

/-- The position of a program is finite after every line exactly if none overflows, and then so are
the ends of all lines that it asks for. -/
theorem executeProgram_isFinite (lines : List (List Char)) {defaults : ModalDefaults}
    (scale : defaults.mmPerInch.isFinite = true) (settings : σ) :
    let steps := programSteps lines (.initial defaults) settings
    ((∀ step ∈ steps, step.outcome.state.position.IsFinite) ↔
        ∀ step ∈ steps, ∀ axis, ¬ step.Overflows axis) ∧
      ((∀ step ∈ steps, ∀ axis, ¬ step.Overflows axis) →
        ∀ target feed,
          Request.line target feed ∈
              (executeProgram lines (.initial defaults) settings).requests →
            target.IsFinite) := by
  intro steps
  have hstart : (ModalState.initial defaults).position.IsFinite := fun axis =>
    (congrArg Float.isFinite (Point.get_replicate 0 axis)).trans (by decide +kernel)
  have hiff := programSteps_isFinite_iff lines settings hstart scale
  refine ⟨hiff, fun hnone target feed hline => ?_⟩
  rw [requests_programSteps] at hline
  obtain ⟨step, hstep, hmem⟩ := List.mem_flatMap.1 hline
  rw [eq_position_of_mem_requests hmem]
  exact hiff.2 hnone step hstep

instance (point : Point Float) : Decidable point.IsFinite :=
  decidable_of_iff (∀ axis ∈ Axis.all, (point.get axis).isFinite = true)
    ⟨fun h axis => h axis (by cases axis <;> decide), fun h axis _ => h axis⟩

def Request.lineTarget? : Request → Option (Point Float)
  | .line target _ => some target
  | _ => none

theorem executeProgram_isFinite_inches :
    let program := ["G20X7E306".toList, "G91X-1Y2".toList, "X-7E306".toList]
    let steps := programSteps program (.initial (.ofConfig .standard))
      (LiveSettings.unsaved .standard .empty)
    (ModalDefaults.ofConfig .standard).mmPerInch.isFinite = true ∧
      ∀ step ∈ steps, ∀ axis, ¬ step.Overflows axis := by
  intro program steps
  have hscale : (ModalDefaults.ofConfig .standard).mmPerInch.isFinite = true := by decide +kernel
  exact ⟨hscale, (executeProgram_isFinite program hscale
    (LiveSettings.unsaved .standard .empty)).1.1 (by decide +kernel)⟩

/-- A coordinate may be too large for a double, and the line still succeeds. -/
theorem executeProgram_infinitePosition :
    let defaults := ModalDefaults.ofConfig .standard
    let outcome := executeProgram ["X1E999".toList] (.initial defaults)
      (LiveSettings.unsaved .standard .empty)
    (defaults.feedRate.isFinite = true ∧ defaults.seekRate.isFinite = true ∧
        defaults.mmPerInch.isFinite = true) ∧
      outcome.status = .ok ∧ ¬ outcome.state.position.IsFinite ∧
        ∃ target feed, Request.line target feed ∈ outcome.requests ∧ ¬ target.IsFinite := by
  intro defaults outcome
  refine ⟨by decide +kernel, by decide +kernel, by decide +kernel, ?_⟩
  have hany : (outcome.requests.any fun request =>
      request.lineTarget?.any (!decide ·.IsFinite)) = true := by decide +kernel
  obtain ⟨request, hmem, hrequest⟩ := List.any_eq_true.1 hany
  cases request with
  | line target feed => exact ⟨target, feed, hmem, by simpa [Request.lineTarget?] using hrequest⟩
  | arc | dwell | goHome | spindleRun | spindleStop => contradiction

end Gcode
