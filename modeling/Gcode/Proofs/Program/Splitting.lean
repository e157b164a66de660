import Gcode.Proofs.Block.Rewriting
import Gcode.Proofs.Block.Status
import Gcode.Proofs.Program.Interleaving

/-!
# Splitting a line

A line may be cut behind its commands.  The modes that the first part sets are those under which the
second part is read, whether it stands on the same line or on the next: the machine ends in the same
state, and the second part asks for what the whole line asks for.  Only words that count for their
own line alone, `G4`, `G28`, `G30` and `G53`, cannot be moved to a line before.
-/

namespace Gcode

/-! ## The two parts -/

structure LastingCommands (words : List Word) : Prop where
  command : ∀ word ∈ words, word.isCommand = true
  supported : ∀ word ∈ words, word.isSupported = true
  noAction : ∀ word ∈ words, Slot.ofWord? word ≠ some .action
  noOverride : ∀ word ∈ words, Slot.ofWord? word ≠ some .absoluteOverride

/-- Behind the first text the second one gives the words that it gives on its own, and it ends in
the same kind of fault if it ends in one. -/
structure ReadsApart (front back : List Char) : Prop where
  words : blockWords (front ++ back) = blockWords front ++ blockWords back
  failure : (Block.ofLine (front ++ back)).failure = (Block.ofLine back).failure

theorem isBlock_append {front back : List Char}
    (scanned : (scanWords (withoutBlockDelete front)).failure = none) (block : IsBlock back) :
    IsBlock (front ++ back) := by
  cases front with
  | nil => exact block
  | cons c front =>
      have hfront := isBlock_of_scanned scanned
      exact ⟨hfront.noComment, hfront.noSettings⟩

/-! ## Words behind words -/

theorem lastWord?_append (slot : Slot) (front back : List Word) :
    lastWord? slot (front ++ back) = (lastWord? slot back).or (lastWord? slot front) := by
  rw [lastWord?, List.filter_append, List.getLast?_append]
  rfl

section

variable {commands parameters : List Word} {slot : Slot}

theorem lastWord?_of_commands (h : ∀ word ∈ commands, word.isCommand = true)
    (hslot : slot.isCommand = false) : lastWord? slot commands = none := by
  refine lastWord?_eq_none_iff.2 fun word hword hfilled => ?_
  rw [Slot.isCommand_of_ofWord? hfilled, h word hword] at hslot
  contradiction

theorem lastWord?_of_parameters (h : ∀ word ∈ parameters, word.isCommand = false)
    (hslot : slot.isCommand = true) : lastWord? slot parameters = none := by
  refine lastWord?_eq_none_iff.2 fun word hword hfilled => ?_
  rw [Slot.isCommand_of_ofWord? hfilled, h word hword] at hslot
  contradiction

theorem lastWord?_commands_append (h : ∀ word ∈ parameters, word.isCommand = false)
    (hslot : slot.isCommand = true) :
    lastWord? slot (commands ++ parameters) = lastWord? slot commands := by
  rw [lastWord?_append, lastWord?_of_parameters h hslot, Option.none_or]

theorem lastWord?_append_parameters (h : ∀ word ∈ commands, word.isCommand = true)
    (hslot : slot.isCommand = false) :
    lastWord? slot (commands ++ parameters) = lastWord? slot parameters := by
  rw [lastWord?_append, lastWord?_of_commands h hslot, Option.or_none]

end

/-! ## Commands alone -/

section

variable {words : List Word} (lasting : LastingCommands words) (state : ModalState)

include lasting

theorem LastingCommands.modifiers : BlockModifiers.ofWords words = .plain := by
  simp [BlockModifiers.ofWords, BlockModifiers.plain, lastG?,
    lastWord?_eq_none_iff.2 lasting.noAction, lastWord?_eq_none_iff.2 lasting.noOverride]

theorem LastingCommands.afterWords : state.afterWords words = state.afterCommands words := by
  have hlast : ∀ slot : Slot, slot.isCommand = false → lastWord? slot words = none :=
    fun slot hslot => lastWord?_of_commands lasting.command hslot
  simp (disch := decide) [ModalState.afterWords, ModalState.afterParameters, hlast]

theorem LastingCommands.target : (Parameters.ofBlock state words).target = state.position := by
  refine Point.ext_get fun axis => ?_
  rw [Parameters.ofBlock, Parameters.target_ofWords, ModalState.coordinateAfter,
    lastWord?_of_commands lasting.command rfl]
  rfl

theorem LastingCommands.exists_plannedMotion :
    ∃ motion, plannedMotion state words = .ok motion := by
  cases hplanned : plannedMotion state words with
  | ok motion => exact ⟨motion, rfl⟩
  | error error =>
      obtain ⟨word, hradius, -⟩ := (plannedMotion_isError_iff.1 ⟨error, hplanned⟩).radius
      rw [lastWord?_of_commands lasting.command rfl] at hradius
      contradiction

theorem LastingCommands.fault?_eq_none : (⟨words, none⟩ : Block).fault? = none := by
  rw [Block.fault?, if_pos (List.all_eq_true.2 lasting.supported)]

theorem LastingCommands.execute_eq {σ : Type} (settings : σ) :
    ∃ motion, (⟨words, none⟩ : Block).execute state settings =
      .moved (state.afterCommands words) state.position motion settings := by
  obtain ⟨motion, hplanned⟩ := lasting.exists_plannedMotion state
  refine ⟨motion, ?_⟩
  unfold Block.execute
  simp only [lasting.fault?_eq_none, hplanned, lasting.afterWords, lasting.target]

end

/-! ## Parameters under the modes of the commands -/

section

variable {commands parameters : List Word} (lasting : LastingCommands commands)
  (hparameters : ∀ word ∈ parameters, word.isCommand = false) (state : ModalState)

include hparameters

theorem ModalState.afterCommands_parameters : state.afterCommands parameters = state := by
  simp (disch := decide) [ModalState.afterCommands, lastG?, lastM?,
    lastWord?_of_parameters hparameters]

theorem ModalState.afterCommands_append :
    state.afterCommands (commands ++ parameters) = state.afterCommands commands := by
  simp (disch := decide) only [ModalState.afterCommands, lastG?, lastM?,
    lastWord?_commands_append hparameters]

theorem BlockModifiers.ofWords_parameters : BlockModifiers.ofWords parameters = .plain := by
  simp (disch := decide) [BlockModifiers.ofWords, BlockModifiers.plain, lastG?,
    lastWord?_of_parameters hparameters]

include lasting

theorem LastingCommands.modifiers_append :
    BlockModifiers.ofWords (commands ++ parameters) = .ofWords parameters := by
  rw [BlockModifiers.ofWords_parameters hparameters, ← lasting.modifiers]
  simp (disch := decide) only [BlockModifiers.ofWords, lastG?,
    lastWord?_commands_append hparameters]

theorem LastingCommands.afterWords_append :
    state.afterWords (commands ++ parameters) =
      (state.afterCommands commands).afterWords parameters := by
  rw [ModalState.afterWords, ModalState.afterWords,
    ModalState.afterCommands_append hparameters,
    ModalState.afterCommands_parameters hparameters]
  simp (disch := decide) only [ModalState.afterParameters,
    lastWord?_append_parameters lasting.command]

theorem LastingCommands.ofBlock_append :
    Parameters.ofBlock state (commands ++ parameters) =
      .ofBlock (state.afterCommands commands) parameters := by
  rw [Parameters.ofBlock, Parameters.ofBlock, ModalState.afterCommands_append hparameters,
    ModalState.afterCommands_parameters hparameters, lasting.modifiers_append hparameters]
  simp (disch := decide) only [Parameters.ofWords, ModalState.coordinateAfter,
    ModalState.lastLength?, lastWord?_append_parameters lasting.command]

theorem LastingCommands.plannedMotion_append :
    plannedMotion state (commands ++ parameters) =
      plannedMotion (state.afterCommands commands) parameters := by
  rw [plannedMotion, plannedMotion, lasting.afterWords_append hparameters,
    lasting.modifiers_append hparameters, lasting.ofBlock_append hparameters]

theorem LastingCommands.all_isSupported :
    (commands ++ parameters).all Word.isSupported = true ∧
      parameters.all Word.isSupported = true := by
  have hback : parameters.all Word.isSupported = true :=
    List.all_eq_true.2 fun word hword => Word.isSupported_of_not_isCommand (hparameters word hword)
  exact ⟨by rw [List.all_append, List.all_eq_true.2 lasting.supported, hback, Bool.and_self], hback⟩

theorem LastingCommands.execute_append {σ : Type} (failure : Option StatusCode) (settings : σ) :
    (⟨commands ++ parameters, failure⟩ : Block).execute state settings =
      (⟨parameters, failure⟩ : Block).execute (state.afterCommands commands) settings := by
  obtain ⟨hwhole, hback⟩ := lasting.all_isSupported hparameters
  unfold Block.execute Block.fault?
  simp only [hwhole, hback, if_true]
  cases failure with
  | some status =>
      have htake : ∀ {words : List Word}, words.all Word.isSupported = true →
          words.takeWhile Word.isSupported = words := fun h =>
        List.takeWhile_eq_self_iff.2 (List.all_eq_true.1 h)
      simp only [htake hwhole, htake hback, ModalState.afterCommands_append hparameters,
        ModalState.afterCommands_parameters hparameters]
  | none =>
      simp only [lasting.plannedMotion_append hparameters, lasting.afterWords_append hparameters,
        lasting.ofBlock_append hparameters]

end

/-! ## Lines -/

theorem execute_lastingCommands {σ : Type} [SettingsHost σ] {line : List Char}
    (scanned : (scanWords (withoutBlockDelete line)).failure = none)
    (lasting : LastingCommands (blockWords line)) (state : ModalState) (settings : σ) :
    ∃ motion, execute line state settings =
      .moved (state.afterCommands (blockWords line)) state.position motion settings := by
  have hline : Block.ofLine line = ⟨blockWords line, none⟩ := by
    rw [Block.ofLine, scanned, Option.map_none]
  obtain ⟨motion, hmoved⟩ := lasting.execute_eq state settings
  refine ⟨motion, ?_⟩
  rw [execute_block_eq (isBlock_of_scanned scanned), hline, hmoved]

/-- A line and its two parts on lines of their own. -/
theorem execute_split {σ : Type} [SettingsHost σ] {front back : List Char}
    (scanned : (scanWords (withoutBlockDelete front)).failure = none)
    (lasting : LastingCommands (blockWords front)) (block : IsBlock back)
    (parameters : ∀ word ∈ blockWords back, word.isCommand = false)
    (apart : ReadsApart front back) (state : ModalState) (settings : σ) :
    let first := execute front state settings
    let second := execute back first.state first.settings
    let whole := execute (front ++ back) state settings
    first.status = .ok ∧ first.state.position = state.position ∧
      second.state = whole.state ∧ second.requests = whole.requests ∧
      second.settings = whole.settings := by
  intro first second whole
  obtain ⟨motion, hfirst⟩ : ∃ motion, first = .moved (state.afterCommands (blockWords front))
      state.position motion settings := execute_lastingCommands scanned lasting state settings
  have hwhole : Block.ofLine (front ++ back) =
      ⟨blockWords front ++ blockWords back, (Block.ofLine back).failure⟩ := by
    rw [← apart.words, ← apart.failure]
    rfl
  have hsecond : second = whole := by
    have hstatus : first.state.withoutStatus =
        (state.afterCommands (blockWords front)).withoutStatus := by
      rw [hfirst]
      rfl
    have hsettings : first.settings = settings := by
      rw [hfirst]
      rfl
    -- no line reads the status, which is all that the first part adds to its modes
    calc execute back first.state first.settings
      _ = execute back (state.afterCommands (blockWords front)) settings := by
        rw [← execute_withoutStatus, hstatus, execute_withoutStatus, hsettings]
      _ = (Block.ofLine back).execute (state.afterCommands (blockWords front)) settings :=
        execute_block_eq block _ settings
      _ = (Block.ofLine (front ++ back)).execute state settings := by
        rw [hwhole]
        exact (lasting.execute_append parameters state _ settings).symm
      _ = execute (front ++ back) state settings :=
        (execute_block_eq (isBlock_append scanned block) state settings).symm
  refine ⟨?_, ?_, ?_, ?_, ?_⟩
  · rw [hfirst]
    rfl
  · rw [hfirst]
    rfl
  all_goals rw [hsecond]

theorem execute_split_impossibleArc :
    let state := ModalState.initial (.ofConfig .standard)
    let settings := LiveSettings.unsaved .standard .empty
    let front := "G2G91G20M3T4".toList
    let back := "X10R1S5F2".toList
    let first := execute front state settings
    let second := execute back first.state first.settings
    LastingCommands (blockWords front) ∧ ReadsApart front back ∧ first.status = .ok ∧
      second.status = .floatingPointError ∧ second.requests = [] ∧ second.state.tool = 4 ∧
      second.state.spindleSpeed = 5 := by
  intro state settings front back first second
  have hlasting : LastingCommands (blockWords front) := by
    constructor <;> decide +kernel
  have hapart : ReadsApart front back := by
    constructor <;> decide +kernel
  obtain ⟨hfirst, -, hstate, hrequests, -⟩ := execute_split (by decide +kernel) hlasting
    (by decide) (by decide +kernel) hapart state settings
  refine ⟨hlasting, hapart, hfirst, ?_, ?_, ?_, ?_⟩
  · rw [Outcome.status, hstate]
    decide +kernel
  · rw [hrequests]
    exact List.eq_nil_of_length_eq_zero (by decide +kernel)
  · rw [hstate]
    decide +kernel
  · rw [hstate]
    decide +kernel

end Gcode
