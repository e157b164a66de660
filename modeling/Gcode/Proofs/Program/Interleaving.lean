import Gcode.Proofs.Program.Steps
import Gcode.Settings.Config
import Gcode.Settings.Live

/-!
# Settings statements between other lines

Settings statements and the other lines of a program do not see each other: either kind does what
it would do alone, however they are interleaved.  The statements meet the settings that earlier
statements left; the other lines meet the state that earlier lines of their own kind left, apart
from its status, which no line reads.  Comments only reply.
-/

namespace Gcode

def isComment (line : List Char) : Bool := line.head? == some '('

def isSettingsStatement (line : List Char) : Bool := line.head? == some '$'

def ModalState.withoutStatus (state : ModalState) : ModalState := { state with status := .ok }

variable {σ : Type} [SettingsHost σ]

def repliesTo (select : List Char → Bool) (steps : List (ProgramStep σ)) : List StatusCode :=
  (steps.filter fun step => select step.line).map fun step => step.outcome.status

section

variable {select : List Char → Bool} {line : List Char}

theorem repliesTo_cons_of_pos (h : select line = true) (lines : List (List Char))
    (state : ModalState) (settings : σ) :
    repliesTo select (programSteps (line :: lines) state settings) =
      (execute line state settings).status :: repliesTo select
        (programSteps lines (execute line state settings).state
          (execute line state settings).settings) := by
  rw [programSteps, repliesTo,
    List.filter_cons_of_pos (p := fun step : ProgramStep σ => select step.line) h]
  rfl

theorem repliesTo_cons_of_neg (h : select line = false) (lines : List (List Char))
    (state : ModalState) (settings : σ) :
    repliesTo select (programSteps (line :: lines) state settings) =
      repliesTo select (programSteps lines (execute line state settings).state
        (execute line state settings).settings) := by
  rw [programSteps, repliesTo, List.filter_cons_of_neg (by simp [h])]
  rfl

end

/-! ## One line -/

theorem plannedMotion_withoutStatus (state : ModalState) (words : List Word) :
    plannedMotion state.withoutStatus words = plannedMotion state words := by
  have hplan : ∀ action parameters, planBlock (state.withoutStatus.afterWords words) action
      parameters = planBlock (state.afterWords words) action parameters := by
    intro action parameters
    cases action <;> rfl
  exact hplan _ _

theorem execute_withoutStatus (line : List Char) (state : ModalState) (settings : σ) :
    execute line state.withoutStatus settings = execute line state settings := by
  rcases isComment_or_isSettings_or_isBlock line with ⟨rest, rfl⟩ | ⟨rest, rfl⟩ | hblock
  · rfl
  · rfl
  · rw [execute_block hblock, execute_block hblock]
    cases hfault : leftmostFault? (withoutBlockDelete line) with
    | some located =>
        rw [executeBlock_of_fault hfault, executeBlock_of_fault hfault]
        rfl
    | none =>
        have hfaultless := leftmostFault?_eq_none_iff.1 hfault
        rw [executeBlock_of_faultless hfaultless, executeBlock_of_faultless hfaultless,
          plannedMotion_withoutStatus]
        cases plannedMotion state (wordsOf (withoutBlockDelete line)) <;> rfl

theorem execute_of_not_settings {line : List Char} (h : isSettingsStatement line = false)
    (state : ModalState) (settings other : σ) :
    execute line state other =
      ⟨(execute line state settings).state, other, (execute line state settings).requests⟩ := by
  rcases isComment_or_isSettings_or_isBlock line with ⟨rest, rfl⟩ | ⟨rest, rfl⟩ | hblock
  · rfl
  · contradiction
  · rw [execute_block hblock, execute_block hblock]

theorem execute_of_settings {line : List Char} (h : isSettingsStatement line = true)
    (state other : ModalState) (settings : σ) :
    (execute line other settings).settings = (execute line state settings).settings ∧
      (execute line other settings).status = (execute line state settings).status := by
  obtain ⟨rest, rfl⟩ := List.head?_eq_some_iff.1 (beq_iff_eq.1 h)
  exact ⟨rfl, rfl⟩

theorem execute_still {line : List Char}
    (h : isSettingsStatement line = true ∨ isComment line = true) (state : ModalState)
    (settings : σ) :
    (execute line state settings).requests = [] ∧
      (execute line state settings).state.withoutStatus = state.withoutStatus := by
  rcases h with hline | hline
  · obtain ⟨rest, rfl⟩ := List.head?_eq_some_iff.1 (beq_iff_eq.1 hline)
    exact ⟨rfl, rfl⟩
  · obtain ⟨rest, rfl⟩ := List.head?_eq_some_iff.1 (beq_iff_eq.1 hline)
    exact ⟨rfl, rfl⟩

/-! ## Whole programs -/

theorem executeProgram_filter_settings (lines : List (List Char)) (state other : ModalState)
    (settings : σ) :
    (executeProgram (lines.filter isSettingsStatement) other settings).settings =
        (executeProgram lines state settings).settings ∧
      (executeAll (lines.filter isSettingsStatement) other settings).map Outcome.status =
        repliesTo isSettingsStatement (programSteps lines state settings) := by
  induction lines generalizing state other settings with
  | nil => exact ⟨rfl, rfl⟩
  | cons line lines ih =>
      cases hline : isSettingsStatement line with
      | true =>
          obtain ⟨hsettings, hstatus⟩ := execute_of_settings hline state other settings
          obtain ⟨hrest, hreplies⟩ := ih (execute line state settings).state
            (execute line other settings).state (execute line state settings).settings
          rw [List.filter_cons_of_pos hline, repliesTo_cons_of_pos hline]
          constructor
          · simp only [executeProgram, hsettings]
            exact hrest
          · simp only [executeAll, List.map_cons, hsettings, hstatus, hreplies]
      | false =>
          have hkept : (execute line state settings).settings = settings := by
            rw [execute_of_not_settings hline state settings settings]
          obtain ⟨hrest, hreplies⟩ := ih (execute line state settings).state other settings
          rw [List.filter_cons_of_neg (by simp [hline]), repliesTo_cons_of_neg hline]
          simp only [executeProgram, hkept]
          exact ⟨hrest, hreplies⟩

theorem executeProgram_settings_eq {lines : List (List Char)}
    (h : ∀ line ∈ lines, isSettingsStatement line = false) (state : ModalState) (settings : σ) :
    (executeProgram lines state settings).settings = settings := by
  have hsettings := (executeProgram_filter_settings lines state state settings).1
  rw [List.filter_eq_nil_iff.2 fun line hline => by simp [h line hline]] at hsettings
  exact hsettings.symm

theorem executeProgram_filter (keep : List Char → Bool) (lines : List (List Char))
    (dropped : ∀ line ∈ lines, keep line = false →
      isSettingsStatement line = true ∨ isComment line = true)
    (kept : ∀ line ∈ lines, keep line = true → isSettingsStatement line = false)
    {state other : ModalState} (same : other.withoutStatus = state.withoutStatus)
    (settings unrelated : σ) :
    (executeProgram (lines.filter keep) other unrelated).requests =
        (executeProgram lines state settings).requests ∧
      (executeProgram (lines.filter keep) other unrelated).state.withoutStatus =
        (executeProgram lines state settings).state.withoutStatus ∧
      (executeAll (lines.filter keep) other unrelated).map Outcome.status =
        repliesTo keep (programSteps lines state settings) := by
  induction lines generalizing state other settings with
  | nil => exact ⟨rfl, same, rfl⟩
  | cons line lines ih =>
      obtain ⟨hdropped, hdroppedRest⟩ := List.forall_mem_cons.1 dropped
      obtain ⟨hkept, hkeptRest⟩ := List.forall_mem_cons.1 kept
      cases hline : keep line with
      | true =>
          have houtcome : execute line other unrelated = ⟨(execute line state settings).state,
              unrelated, (execute line state settings).requests⟩ := by
            rw [← execute_withoutStatus line other, same, execute_withoutStatus,
              execute_of_not_settings (hkept hline) state settings unrelated]
          obtain ⟨hrequests, hstate, hreplies⟩ := ih hdroppedRest hkeptRest
            (rfl : (execute line state settings).state.withoutStatus = _)
            (execute line state settings).settings
          rw [List.filter_cons_of_pos hline, repliesTo_cons_of_pos hline]
          refine ⟨?_, ?_, ?_⟩
          · simp only [executeProgram, houtcome, hrequests]
          · simp only [executeProgram, houtcome]
            exact hstate
          · simp only [executeAll, List.map_cons, houtcome, hreplies]
            rfl
      | false =>
          -- only the whole program executes the line, which does nothing but reply
          obtain ⟨hnone, hsame⟩ := execute_still (hdropped hline) state settings
          obtain ⟨hrequests, hstate, hreplies⟩ := ih hdroppedRest hkeptRest
            (same.trans hsame.symm) (execute line state settings).settings
          rw [List.filter_cons_of_neg (by simp [hline]), repliesTo_cons_of_neg hline]
          simp only [executeProgram, hnone, List.nil_append]
          exact ⟨hrequests, hstate, hreplies⟩

/-- Settings statements among other lines.  `settings` stands for all that they keep, so the table,
the listing and the files are the same; of the state only the status of the last line differs. -/
theorem executeProgram_interleaved (lines : List (List Char)) (state : ModalState) (settings : σ) :
    let steps := programSteps lines state settings
    let whole := executeProgram lines state settings
    let statements := lines.filter isSettingsStatement
    let others := lines.filter fun line => !isSettingsStatement line
    let blocks := others.filter fun line => !isComment line
    (∀ elsewhere : ModalState,
      (executeProgram statements elsewhere settings).settings = whole.settings ∧
        (executeAll statements elsewhere settings).map Outcome.status =
          repliesTo isSettingsStatement steps) ∧
      ∀ unrelated : σ,
        let alone := executeProgram others state unrelated
        let bare := executeProgram blocks state unrelated
        (alone.requests = whole.requests ∧
            alone.state.withoutStatus = whole.state.withoutStatus ∧
            (executeAll others state unrelated).map Outcome.status =
              repliesTo (fun line => !isSettingsStatement line) steps) ∧
          bare.requests = alone.requests ∧
            bare.state.withoutStatus = alone.state.withoutStatus ∧
            bare.settings = alone.settings ∧
            (executeAll blocks state unrelated).map Outcome.status =
              repliesTo (fun line => !isComment line) (programSteps others state unrelated) := by
  intro steps whole statements others blocks
  have hothers : ∀ line ∈ others, isSettingsStatement line = false := by
    intro line hline
    simpa using (List.mem_filter.1 hline).2
  constructor
  · intro elsewhere
    exact executeProgram_filter_settings lines state elsewhere settings
  · intro unrelated alone bare
    have halone := executeProgram_filter (fun line => !isSettingsStatement line) lines
      (fun line _ hline => .inl (by simpa using hline))
      (fun line _ hline => by simpa using hline) (rfl : state.withoutStatus = _) settings unrelated
    obtain ⟨hrequests, hstate, hreplies⟩ := executeProgram_filter (fun line => !isComment line)
      others (fun line _ hline => .inr (by simpa using hline))
      (fun line hline _ => hothers line hline) (rfl : state.withoutStatus = _) unrelated unrelated
    have hblocks : ∀ line ∈ blocks, isSettingsStatement line = false := by
      intro line hline
      exact hothers line (List.mem_filter.1 hline).1
    have hbare : bare.settings = alone.settings := by
      rw [executeProgram_settings_eq hblocks, executeProgram_settings_eq hothers]
    exact ⟨halone, hrequests, hstate, hbare, hreplies⟩

theorem executeProgram_interleaved_defaultFeedRate :
    let initial := ModalState.initial (.ofConfig .standard)
    let settings := LiveSettings.unsaved .standard .empty
    let whole := executeProgram ["G1X5".toList, "$4=300".toList, "/$5=1".toList, "X9".toList]
      initial settings
    whole.settings.table.defaultFeedRate = 300 ∧ whole.settings.table.defaultSeekRate = 480 ∧
      whole.state.withoutStatus.feedRate = 8 := by
  intro initial settings whole
  have hsplit := executeProgram_interleaved ["G1X5".toList, "$4=300".toList, "/$5=1".toList,
    "X9".toList] initial settings
  have hsettings := (hsplit.1 initial).1
  have hstate := (hsplit.2 settings).1.2.1
  refine ⟨?_, ?_, ?_⟩
  · rw [← hsettings]
    decide +kernel
  · rw [← hsettings]
    decide +kernel
  · rw [← hstate]
    decide +kernel

end Gcode
