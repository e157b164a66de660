import Gcode.Proofs.Program.Rewriting
import Gcode.Settings.Config
import Gcode.Settings.Live

/-!
# Programs in inches

A program in inches does what it does in millimetres once its lengths are multiplied.  So each
length is converted once, wherever it goes: into a coordinate, the centre or the radius of an arc,
the feed rate or the time of a move; and no other number is converted at all.
-/

namespace Gcode

/-! ## Lengths -/

def Word.isLength (word : Word) : Bool :=
  ['F', 'I', 'J', 'K', 'R', 'X', 'Y', 'Z'].contains word.letter

def Word.scaled (factor : Float) (word : Word) : Word :=
  if word.isLength then { word with value := word.value * factor } else word

theorem Word.not_isLength_of_isCommand {word : Word} (h : word.isCommand = true) :
    word.isLength = false := by
  obtain ⟨letter, value⟩ := word
  simp only [isCommand, Bool.or_eq_true, beq_iff_eq] at h
  rcases h with (rfl | rfl) | rfl <;> rfl

theorem Slot.isLength_of_ofWord? {word : Word} {slot : Slot}
    (h : Slot.ofWord? word = some slot) : word.isLength = slot.isLength := by
  have hcommand := Slot.isCommand_of_ofWord? h
  cases hword : word.isCommand with
  | true =>
      rw [hword] at hcommand
      rw [Word.not_isLength_of_isCommand hword]
      cases slot <;> first | rfl | contradiction
  | false =>
      obtain ⟨letter, value⟩ := word
      simp only [ofWord?] at h
      split at h <;> first | contradiction | (cases h; rfl)

theorem rewritesParameters_scaled (factor : Float) :
    RewritesParameters (Word.scaled factor) id where
  ofWord? word := by
    unfold Word.scaled
    split
    · next hlength =>
        obtain ⟨letter, value⟩ := word
        simp only [Word.isLength, List.contains_iff_mem, List.mem_cons, List.not_mem_nil,
          or_false] at hlength
        rcases hlength with rfl | rfl | rfl | rfl | rfl | rfl | rfl | rfl <;> rfl
    · rw [Option.map_id_fun, id]
  injective := Function.injective_id
  command word h := by rw [Word.scaled, Word.not_isLength_of_isCommand h, if_neg Bool.false_ne_true]
  parameter word h := by
    unfold Word.scaled
    split <;> exact h

theorem lastWord?_scaled (factor : Float) (slot : Slot) (words : List Word) :
    lastWord? slot (words.map (Word.scaled factor)) =
      (lastWord? slot words).map (Word.scaled factor) :=
  (rewritesParameters_scaled factor).lastWord?_map slot words

theorem lastWord?_scaled_of_not_isLength {slot : Slot} (h : slot.isLength = false)
    (factor : Float) (words : List Word) :
    lastWord? slot (words.map (Word.scaled factor)) = lastWord? slot words := by
  rw [lastWord?_scaled]
  cases hlast : lastWord? slot words with
  | none => rfl
  | some word =>
      have hword : word.isLength = false := by
        rw [Slot.isLength_of_ofWord? (lastWord?_slot hlast), h]
      rw [Option.map_some, Word.scaled, hword, if_neg Bool.false_ne_true]

/-! ## Reading in millimetres -/

namespace ModalState

def metric (state : ModalState) : ModalState := { state with units := .millimeters }

variable (state : ModalState) {words : List Word}

theorem units_afterCommands (unset : ∀ word ∈ words, Slot.ofWord? word ≠ some .units) :
    (state.afterCommands words).units = state.units := by
  simp [afterCommands, lastG?, lastWord?_eq_none_iff.2 unset]

theorem afterCommands_metric (unset : ∀ word ∈ words, Slot.ofWord? word ≠ some .units) :
    state.metric.afterCommands words = (state.afterCommands words).metric := by
  simp [afterCommands, metric, lastG?, lastWord?_eq_none_iff.2 unset]

variable {state} (inches : state.units = .inches)

include inches

theorem inMillimeters_metric {word : Word} (length : word.isLength = true) :
    state.metric.inMillimeters (word.scaled state.mmPerInch).value =
      state.inMillimeters word.value := by
  rw [Word.scaled, if_pos length, inMillimeters, inMillimeters, inches]
  rfl

theorem lastLength?_metric {slot : Slot} (length : slot.isLength = true) :
    state.metric.lastLength? slot (words.map (Word.scaled state.mmPerInch)) =
      state.lastLength? slot words := by
  rw [lastLength?, lastLength?, lastWord?_scaled]
  cases hlast : lastWord? slot words with
  | none => rfl
  | some word =>
      have hword : word.isLength = true := by
        rw [Slot.isLength_of_ofWord? (lastWord?_slot hlast), length]
      exact congrArg some (inMillimeters_metric inches hword)

theorem coordinateAfter_metric (absolute : Bool) (axis : Axis) :
    state.metric.coordinateAfter absolute (words.map (Word.scaled state.mmPerInch)) axis =
      state.coordinateAfter absolute words axis := by
  rw [coordinateAfter_eq, coordinateAfter_eq, lastLength?_metric inches rfl]
  rfl

theorem afterParameters_metric :
    state.metric.afterParameters (words.map (Word.scaled state.mmPerInch)) =
      (state.afterParameters words).metric := by
  rw [afterParameters_eq, afterParameters_eq, lastLength?_metric inches rfl,
    lastWord?_scaled_of_not_isLength rfl]
  rfl

end ModalState

theorem Parameters.ofWords_metric {state : ModalState} (inches : state.units = .inches)
    (absolute : Bool) (words : List Word) :
    ofWords state.metric absolute (words.map (Word.scaled state.mmPerInch)) =
      ofWords state absolute words := by
  simp (disch := decide) only [ofWords, ModalState.coordinateAfter_metric inches,
    ModalState.lastLength?_metric inches, lastWord?_scaled_of_not_isLength]
  rfl

/-! ## Blocks -/

theorem planBlock_metric (state : ModalState) (action : BlockAction) (parameters : Parameters) :
    planBlock state.metric action parameters = planBlock state action parameters := by
  cases action <;> rfl

section

variable {state : ModalState} {words : List Word} (inches : state.units = .inches)
  (unset : ∀ word ∈ words, Slot.ofWord? word ≠ some .units)

include inches unset

theorem ModalState.afterWords_metric :
    state.metric.afterWords (words.map (Word.scaled state.mmPerInch)) =
      (state.afterWords words).metric := by
  have hunits : (state.afterCommands words).units = .inches :=
    (state.units_afterCommands unset).trans inches
  rw [afterWords, (rewritesParameters_scaled _).afterCommands, state.afterCommands_metric unset]
  exact afterParameters_metric hunits

theorem Parameters.ofBlock_metric :
    ofBlock state.metric (words.map (Word.scaled state.mmPerInch)) = ofBlock state words := by
  have hunits : (state.afterCommands words).units = .inches :=
    (state.units_afterCommands unset).trans inches
  rw [ofBlock, (rewritesParameters_scaled _).afterCommands,
    state.afterCommands_metric unset, (rewritesParameters_scaled _).modifiers]
  exact ofWords_metric hunits _ words

theorem plannedMotion_metric :
    plannedMotion state.metric (words.map (Word.scaled state.mmPerInch)) =
      plannedMotion state words := by
  rw [plannedMotion, ModalState.afterWords_metric inches unset,
    (rewritesParameters_scaled _).modifiers, Parameters.ofBlock_metric inches unset,
    planBlock_metric]
  rfl

end

def Outcome.metric {σ : Type} (outcome : Outcome σ) : Outcome σ :=
  { outcome with state := outcome.state.metric }

theorem Block.execute_metric {σ : Type} {block : Block} {state : ModalState}
    (inches : state.units = .inches)
    (unset : ∀ word ∈ block.words, Slot.ofWord? word ≠ some .units) (settings : σ) :
    (block.map (Word.scaled state.mmPerInch)).execute state.metric settings =
      (block.execute state settings).metric := by
  have rewriting := rewritesParameters_scaled state.mmPerInch
  unfold execute
  rw [rewriting.fault?_map]
  cases block.fault? with
  | some status =>
      have hread := state.afterCommands_metric (unset_takeWhile unset)
      simp only [Block.map, rewriting.takeWhile_isSupported, rewriting.afterCommands, hread]
      rfl
  | none =>
      simp only [Block.map, plannedMotion_metric inches unset,
        ModalState.afterWords_metric inches unset, Parameters.ofBlock_metric inches unset]
      cases plannedMotion state block.words <;> rfl

theorem Block.units_execute {σ : Type} (block : Block) {state : ModalState}
    (unset : ∀ word ∈ block.words, Slot.ofWord? word ≠ some .units) (settings : σ) :
    (block.execute state settings).state.units = state.units ∧
      (block.execute state settings).state.mmPerInch = state.mmPerInch := by
  unfold execute
  cases block.fault? with
  | some status => exact ⟨state.units_afterCommands (unset_takeWhile unset), rfl⟩
  | none =>
      cases plannedMotion state block.words with
      | error error => exact ⟨state.units_afterCommands unset, rfl⟩
      | ok motion => exact ⟨state.units_afterCommands unset, rfl⟩

/-! ## Programs -/

/-- A program in inches and the same in millimetres, line by line. -/
theorem executeAll_scaled {σ : Type} [SettingsHost σ] (state : ModalState) (settings : σ)
    (lines scaled : List (List Char)) (inches : state.units = .inches)
    (rewritten : List.Forall₂ (IsRewriting (Word.scaled state.mmPerInch) .units) lines scaled) :
    List.Forall₂ (fun outcome twin =>
        twin.status = outcome.status ∧ twin.requests = outcome.requests ∧
          twin.state = { outcome.state with units := .millimeters })
      (executeAll lines state settings)
      (executeAll scaled { state with units := .millimeters } settings) := by
  have hsteps := executeAll_rewritten
    (fun current => current.units = .inches ∧ current.mmPerInch = state.mmPerInch)
    ModalState.metric Outcome.metric (fun outcome => ⟨rfl, rfl⟩)
    (fun settings hunset hkept => ?_) rewritten ⟨inches, rfl⟩ settings
  · refine hsteps.imp fun outcome twin hmatch => ?_
    obtain ⟨rfl, -⟩ := hmatch
    exact ⟨rfl, rfl, rfl⟩
  · obtain ⟨hinches, hscale⟩ := hkept
    obtain ⟨hunits, hfactor⟩ := Block.units_execute _ hunset settings
    rw [hunits, hfactor, ← hscale]
    exact ⟨Block.execute_metric hinches hunset settings, hinches, rfl⟩

theorem executeAll_scaled_relative :
    let state := { ModalState.initial (.ofConfig .standard) with units := .inches }
    let settings := LiveSettings.unsaved .standard .empty
    let lines := ["G91G1X1Y-0.5F10S500".toList, "G2X2R2".toList, "G93G0X1F2".toList]
    let scaled := ["G91G1X25.4Y-12.7F254S500".toList, "G2X50.8R50.8".toList,
      "G93G0X25.4F50.8".toList]
    List.Forall₂ (IsRewriting (Word.scaled state.mmPerInch) .units) lines scaled ∧
      (executeAll scaled { state with units := .millimeters } settings).map Outcome.status =
        [.ok, .ok, .ok] ∧
      (executeAll lines state settings).map (fun outcome => outcome.state.position) =
        (executeAll scaled { state with units := .millimeters } settings).map
          fun twin => twin.state.position := by
  intro state settings lines scaled
  have hlines : List.Forall₂ (IsRewriting (Word.scaled state.mmPerInch) .units) lines scaled :=
    .cons (by constructor <;> decide +kernel) <| .cons (by constructor <;> decide +kernel) <|
      .cons (by constructor <;> decide +kernel) .nil
  have hsame := executeAll_scaled state settings lines scaled rfl hlines
  have hstatus : (executeAll lines state settings).map Outcome.status =
      (executeAll scaled { state with units := .millimeters } settings).map Outcome.status :=
    map_eq_of_forall₂ hsame fun hmatch => hmatch.1.symm
  refine ⟨hlines, ?_, map_eq_of_forall₂ hsame fun hmatch => ?_⟩
  · rw [← hstatus]
    decide +kernel
  · rw [hmatch.2.2]

end Gcode
