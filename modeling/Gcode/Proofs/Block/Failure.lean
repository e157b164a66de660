import Gcode.Proofs.Block.Execution
import Gcode.Settings.Config
import Gcode.Settings.Live

/-!
# Lines that fail

A line that fails issues no request, moves nothing and leaves the settings alone.  What it does
leave behind are the modes that were set before its failing word, and if only the arc is impossible,
the rates of the line as well.
-/

namespace Gcode

theorem StatusCode.exists_error {α : Type} {result : Except LineError α}
    (h : StatusCode.ofResult result ≠ .ok) : ∃ error, result = .error error := by
  cases result with
  | error error => exact ⟨error, rfl⟩
  | ok value => exact absurd rfl h

/-! ## Settings statements -/

theorem LiveSettings.store_error {settings : LiveSettings} {index : UInt32} {value : Float}
    {error : SettingsError} (h : (settings.store index value).1 = .error error) :
    (settings.store index value).2 = settings := by
  unfold LiveSettings.store at h ⊢
  split at h
  · rfl
  · contradiction

theorem executeSettings_error {line : List Char} {settings : LiveSettings} {error : LineError}
    (h : (executeSettings line settings).1 = .error error) :
    (executeSettings line settings).2 = settings := by
  unfold executeSettings at h ⊢
  split at h
  · rfl
  · contradiction
  · next index value _ =>
      simp only at h ⊢
      split at h
      · contradiction
      · next hstored => exact LiveSettings.store_error hstored

/-! ## Whole lines -/

theorem execute_failed_atomic (line : List Char) (state : ModalState) (settings : LiveSettings)
    (failed : (execute line state settings).status ≠ .ok) :
    (execute line state settings).requests = [] ∧
      (execute line state settings).settings = settings ∧
      (execute line state settings).state.position = state.position ∧
      (execute line state settings).state.mmPerInch = state.mmPerInch ∧
      (execute line state settings).state.seekRate = state.seekRate ∧
      ((execute line state settings).status ≠ .floatingPointError →
        (execute line state settings).state.feedRate = state.feedRate ∧
          (execute line state settings).state.spindleSpeed = state.spindleSpeed) ∧
      (execute line state settings).state.status = (execute line state settings).status := by
  rcases isComment_or_isSettings_or_isBlock line with ⟨rest, rfl⟩ | ⟨rest, rfl⟩ | hblock
  · exact absurd rfl failed
  · obtain ⟨error, herror⟩ : ∃ error, (executeSettings ('$' :: rest) settings).1 = .error error :=
      StatusCode.exists_error failed
    exact ⟨rfl, executeSettings_error herror, rfl, rfl, rfl, fun _ => ⟨rfl, rfl⟩, rfl⟩
  · rw [execute_block hblock] at failed ⊢
    cases hfault : leftmostFault? (withoutBlockDelete line) with
    | some located =>
        rw [executeBlock_of_fault hfault]
        exact ⟨rfl, rfl, rfl, rfl, rfl, fun _ => ⟨rfl, rfl⟩, rfl⟩
    | none =>
        -- the parameters are read without a fault, so only the arc can fail
        rw [executeBlock_of_faultless (leftmostFault?_eq_none_iff.1 hfault)] at failed ⊢
        cases hplan : plannedMotion state (wordsOf (withoutBlockDelete line)) with
        | ok motion =>
            rw [hplan] at failed
            exact absurd rfl failed
        | error error =>
            refine ⟨rfl, rfl, rfl, rfl, rfl, fun hstatus => ?_, rfl⟩
            exact absurd (planBlock_error_status hplan) hstatus

theorem execute_failed_atomic_missingNumber :
    (execute "F600S500G20X".toList (.initial (.ofConfig .standard))
        (LiveSettings.unsaved .standard .empty)).status = .badNumberFormat ∧
      (execute "F600S500G20X".toList (.initial (.ofConfig .standard))
        (LiveSettings.unsaved .standard .empty)).requests = [] ∧
      (execute "F600S500G20X".toList (.initial (.ofConfig .standard))
        (LiveSettings.unsaved .standard .empty)).state.feedRate = 8 := by
  have hstatus : (execute "F600S500G20X".toList (.initial (.ofConfig .standard))
      (LiveSettings.unsaved .standard .empty)).status = .badNumberFormat := by decide +kernel
  have hatomic := execute_failed_atomic "F600S500G20X".toList (.initial (.ofConfig .standard))
    (LiveSettings.unsaved .standard .empty) (by rw [hstatus]; decide)
  obtain ⟨hrequests, -, -, -, -, hrates, -⟩ := hatomic
  refine ⟨hstatus, hrequests, ?_⟩
  rw [(hrates (by rw [hstatus]; decide)).1]
  decide +kernel

/-! ## The modes before the failing word -/

/-- A line that fails while its commands are read leaves the modes that its text before the failing
word leaves on its own. -/
theorem readCommands_failed_eq_cut {σ : Type} [SettingsHost σ] (line : List Char)
    (state : ModalState) (settings : σ) (error : LineError) (block : IsBlock line)
    (failed : (readCommands (withoutBlockDelete line) state).1 = .error error) :
    ∃ column fault before rest modifiers,
      leftmostFault? (withoutBlockDelete line) = some (column, fault) ∧
      error = fault.error column ∧
      withoutBlockDelete line = before ++ rest ∧ byteLength before = column ∧
      leftmostFaultFrom column rest = some (column, fault) ∧
      readCommands before state =
        (.ok modifiers, (readCommands (withoutBlockDelete line) state).2) ∧
      (execute line state settings).state =
        { (readCommands before state).2 with status := error.status } := by
  cases hfault : leftmostFault? (withoutBlockDelete line) with
  | none =>
      rw [readCommands_of_faultless (leftmostFault?_eq_none_iff.1 hfault)] at failed
      contradiction
  | some located =>
      obtain ⟨column, fault⟩ := located
      obtain ⟨before, rest, htext, hcolumn, hrest, hbefore, hwords⟩ := leftmostFault?_cut hfault
      rw [readCommands_of_fault hfault] at failed ⊢
      obtain rfl : fault.error column = error := Except.error.inj failed
      refine ⟨column, fault, before, rest, .ofWords (wordsOf before), rfl, rfl, htext, hcolumn,
        hrest, ?_, ?_⟩
      · rw [readCommands_of_faultless hbefore, hwords]
      · rw [execute_block block, executeBlock_of_fault hfault, readCommands_of_faultless hbefore,
          hwords]
        rfl

theorem readCommands_failed_eq_cut_unsupported :
    ∃ before rest, "G1G91G200G20".toList = before ++ rest ∧ byteLength before = 5 ∧
      (readCommands before (.initial (.ofConfig .standard))).2 =
        (readCommands "G1G91G200G20".toList (.initial (.ofConfig .standard))).2 := by
  have hfault : leftmostFault? "G1G91G200G20".toList = some (5, .unsupported ⟨'G', 200⟩) := by
    decide +kernel
  have hfailed : (readCommands "G1G91G200G20".toList (.initial (.ofConfig .standard))).1 =
      .error (.unsupportedWord 'G' 200) := by
    rw [readCommands_of_fault hfault]
    rfl
  obtain ⟨column, fault, before, rest, modifiers, hsame, -, htext, hbytes, -, hmodes, -⟩ :=
    readCommands_failed_eq_cut "G1G91G200G20".toList (.initial (.ofConfig .standard))
      (LiveSettings.unsaved .standard .empty) _ (by decide) hfailed
  have hcolumn : column = 5 := by
    rw [show withoutBlockDelete "G1G91G200G20".toList = "G1G91G200G20".toList from rfl, hfault]
      at hsame
    exact (congrArg Prod.fst (Option.some.inj hsame)).symm
  exact ⟨before, rest, htext, hbytes.trans hcolumn, by rw [hmodes]; rfl⟩

end Gcode
