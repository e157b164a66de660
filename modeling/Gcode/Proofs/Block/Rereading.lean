import Gcode.Proofs.Block.Execution
import Gcode.Proofs.Words.Grammar
import Gcode.Settings.Config

/-!
# Reading a line twice

The commands and the parameters of a line are read one after the other, each from the text itself.
Whether either reading fails depends on the text alone.  The parameters are read up to the first
word without a letter or a number; the commands stop there too, if no unsupported word made them
stop before.  So a block whose commands were read gets all of its parameters.
-/

namespace Gcode

/-! ## Where a reading stops -/

/-- A failing word starts at the column: its letter is missing there, or its number right behind. -/
inductive LineError.StartsAt (column : Nat) : LineError → Prop
  | noLetter (found : Char) : StartsAt column (.expectedCommandLetter column found)
  | noNumber : StartsAt column (.badNumberFormat (column + 1))

theorem ScanEnd.startsAt {column : Nat} {rest : List Char} {error : LineError}
    (h : ScanEnd column rest (some error)) : error.StartsAt column := by
  cases h with
  | noLetter => exact .noLetter _
  | noNumber => exact .noNumber

theorem Tiles.start_lt_cursor {column : Nat} {text rest : List Char} {words : List PlacedWord}
    (h : Tiles column text words rest) (failure : Option LineError) :
    column ≤ (Scan.mk words failure).cursor column ∧
      ∀ placed ∈ words, placed.start < (Scan.mk words failure).cursor column := by
  induction h with
  | done => simp [Scan.cursor]
  | @word column letter numeral after rest words hletter hwell _ _ ih =>
      obtain ⟨hstop, hwords⟩ := ih
      rw [Scan.cursor_cons]
      rw [column_add_byteLength_word hletter hwell] at hstop hwords ⊢
      dsimp only at hstop ⊢
      exact ⟨by omega, List.forall_mem_cons.2 ⟨by dsimp only; omega, hwords⟩⟩

theorem scanWords_startsAt {line : List Char} {error : LineError}
    (failed : (scanWords line).failure = some error) :
    error.StartsAt ((scanWords line).cursor 0) ∧
      ∀ placed ∈ (scanWords line).words, placed.start < (scanWords line).cursor 0 := by
  obtain ⟨rest, htiles, hend⟩ := scanWordsFrom_tiles 0 line
  have hstop := htiles.start_lt_cursor (scanWords line).failure
  refine ⟨?_, hstop.2⟩
  change ScanEnd _ rest (scanWords line).failure at hend
  rw [failed] at hend
  exact hend.startsAt

/-! ## Both readings -/

theorem readCommands_fst (line : List Char) (state : ModalState) :
    (readCommands line state).1 =
      match (((scanWords line).words.find? fun placed => !placed.word.isSupported).map
          fun placed => LineError.unsupportedWord placed.word.letter placed.word.value).or
        (scanWords line).failure with
      | some error => .error error
      | none => .ok (.ofWords ((wordsOf line).takeWhile Word.isSupported)) := by
  have herror := leftmostFaultFrom_error 0 line
  rw [← scanWords] at herror
  rw [readCommands_eq, herror, leftmostFault?]
  cases leftmostFaultFrom 0 line <;> rfl

theorem scanned_of_readCommands {line : List Char} {state : ModalState}
    {modifiers : BlockModifiers} (read : (readCommands line state).1 = .ok modifiers) :
    (scanWords line).failure = none := by
  rw [readCommands_fst] at read
  cases hfailure : (scanWords line).failure with
  | none => rfl
  | some error =>
      cases hfind : (scanWords line).words.find? fun placed => !placed.word.isSupported <;>
        simp [hfailure, hfind] at read

theorem readParameters_isOk_iff (line : List Char) (state : ModalState) (override : Bool) :
    (∃ parameters, (readParameters line state override).1 = .ok parameters) ↔
      (scanWords line).failure = none := by
  rw [readParameters_eq]
  cases (scanWords line).failure <;> simp

theorem readParameters_fst_eq_error_iff {line : List Char} {state : ModalState} {override : Bool}
    {error : LineError} :
    (readParameters line state override).1 = .error error ↔
      (scanWords line).failure = some error := by
  rw [readParameters_eq]
  cases (scanWords line).failure <;> simp

/-- Both readings of a line fail in step, whatever the states: where its commands can be read, its
parameters can, and where its parameters cannot, its commands fail at the same place or at an
unsupported word before it.  In a block the parameters are read under the modes of its commands, so
the rates are those before the block or those that all of its words give. -/
theorem readParameters_inStep (line : List Char) (first second : ModalState) (override : Bool) :
    ((∃ modifiers, (readCommands line first).1 = .ok modifiers) →
      ∃ parameters, (readParameters line second override).1 = .ok parameters) ∧
    (∀ error, (readParameters line second override).1 = .error error →
      ∃ column, error.StartsAt column ∧
        ((readCommands line first).1 = .error error ∨
          ∃ placed ∈ (scanWords line).words, placed.start < column ∧
            placed.word.isSupported = false ∧
            (readCommands line first).1 =
              .error (.unsupportedWord placed.word.letter placed.word.value))) ∧
    (∀ error modes, readCommands line first = (.error error, modes) →
      executeBlock line first = (.error error, modes) ∧
        modes.feedRate = first.feedRate ∧ modes.spindleSpeed = first.spindleSpeed) ∧
    (∀ modifiers modes, readCommands line first = (.ok modifiers, modes) →
      ∃ parameters, readParameters line modes modifiers.absoluteOverride =
          (.ok parameters, modes.afterParameters (wordsOf line)) ∧
        (executeBlock line first).2.feedRate =
          (modes.afterParameters (wordsOf line)).feedRate ∧
        (executeBlock line first).2.spindleSpeed =
          (modes.afterParameters (wordsOf line)).spindleSpeed) := by
  refine ⟨?_, ?_, ?_, ?_⟩
  · rintro ⟨modifiers, hcommands⟩
    exact (readParameters_isOk_iff ..).2 (scanned_of_readCommands hcommands)
  · intro error hparameters
    have hfailure := readParameters_fst_eq_error_iff.1 hparameters
    obtain ⟨hstarts, hbefore⟩ := scanWords_startsAt hfailure
    refine ⟨_, hstarts, ?_⟩
    rw [readCommands_fst, hfailure]
    cases hfind : (scanWords line).words.find? fun placed => !placed.word.isSupported with
    | none => exact .inl rfl
    | some placed =>
        have hmem := List.mem_of_find?_eq_some hfind
        have hunsupported := List.find?_some hfind
        exact .inr ⟨placed, hmem, hbefore placed hmem, by simpa using hunsupported, rfl⟩
  · intro error modes hcommands
    have hmodes := congrArg Prod.snd hcommands
    rw [readCommands_eq] at hmodes
    obtain rfl : first.afterCommands ((wordsOf line).takeWhile Word.isSupported) = modes := hmodes
    exact ⟨by rw [executeBlock, hcommands], rfl, rfl⟩
  · intro modifiers modes hcommands
    have hscanned := scanned_of_readCommands (congrArg Prod.fst hcommands)
    have hparameters := readParameters_eq line modes modifiers.absoluteOverride
    rw [hscanned] at hparameters
    refine ⟨_, hparameters, ?_⟩
    rw [executeBlock, hcommands]
    simp only [hparameters]
    split <;> exact ⟨rfl, rfl⟩

theorem readParameters_inStep_unsupported :
    let line := "G1F60G200F".toList
    let first := ModalState.initial (.ofConfig .standard)
    let second := { first with inverseFeedRateMode := true }
    (readParameters line second true).1 = .error (.badNumberFormat 10) ∧
      ∃ placed ∈ (scanWords line).words, placed.start < 9 ∧
        (readCommands line first).1 =
          .error (.unsupportedWord placed.word.letter placed.word.value) := by
  intro line first second
  have hfailure : (scanWords line).failure = some (.badNumberFormat 10) := by decide +kernel
  have hparameters : (readParameters line second true).1 = .error (.badNumberFormat 10) :=
    readParameters_fst_eq_error_iff.2 hfailure
  have hstatus : StatusCode.ofResult (readCommands line first).1 = .unsupportedStatement := by
    decide +kernel
  obtain ⟨-, hfailed, -, -⟩ := readParameters_inStep line first second true
  obtain ⟨column, hstarts, hcommands⟩ := hfailed _ hparameters
  obtain rfl : 9 = column := by
    cases hstarts with
    | noNumber => rfl
  refine ⟨hparameters, ?_⟩
  rcases hcommands with hsame | ⟨placed, hmem, hbefore, -, herror⟩
  · rw [hsame] at hstatus
    contradiction
  · exact ⟨placed, hmem, hbefore, herror⟩

end Gcode
