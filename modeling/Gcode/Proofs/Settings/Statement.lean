import Gcode.Program
import Gcode.Proofs.Document.Number
import Gcode.Proofs.Double.Reading
import Gcode.Proofs.Words.Grammar

/-!
# The language of settings statements

Which `$` lines list the settings, which store a value and where, and what the others fail with, all
in terms of the numbers of the grammar.  `Recorded` settings note what they are asked to do, so that
a line can be seen to ask at most once.
-/

namespace Gcode

open Double Grammar

/-! ## Numbers of settings -/

theorem settingNumber?_eq_some_iff {value : Float} {index : UInt32} :
    settingNumber? value = some index ↔
      value.isFinite = true ∧ truncation (exactValue value) = index.toNat := by
  cases hparts : floatParts value with
  | nan | infinite =>
      have hinfinite : ¬ value.isFinite = true := by simp [isFinite_iff, hparts]
      simp [settingNumber?, hparts, hinfinite]
  | finite negative magnitude =>
      have hfinite : value.isFinite = true := isFinite_iff.2 ⟨negative, magnitude, hparts⟩
      have hsize : index.toNat < UInt32.size := index.toNat_lt
      have hnumber : ∀ number : Nat, number < UInt32.size →
          (UInt32.ofNat number = index ↔ number = index.toNat) := fun number h => by
        rw [← UInt32.toNat_inj, UInt32.toNat_ofNat_of_lt' h]
      simp only [settingNumber?, hparts, hfinite, truncation_exactValue hparts, true_and]
      generalize magnitude.floor = number
      cases negative with
      | false =>
          simp only [Bool.false_and, Bool.false_eq_true, if_false]
          split
          · next hlt => rw [Option.some_inj, hnumber _ hlt, Nat.cast_inj]
          · next hge =>
              refine iff_of_false nofun fun h => hge ?_
              rwa [Nat.cast_inj.1 h]
      | true =>
          simp only [Bool.true_and, bne_iff_ne, if_true]
          split
          · next hnonzero =>
              refine iff_of_false nofun fun h => hnonzero ?_
              omega
          · next hzero =>
              obtain rfl := not_ne_iff.1 hzero
              rw [if_pos (by decide), Option.some_inj, hnumber _ (by decide)]
              omega

example : settingNumber? (-0.9) = some 0 ∧ settingNumber? 4294967296 = none := by
  decide +kernel

/-! ## Reading a statement -/

theorem scanNumeral_before_equals {number : Numeral} (hwell : number.WellFormed)
    (rest : List Char) : scanNumeral (number.text ++ '=' :: rest) = some (number, '=' :: rest) :=
  Numeral.scanNumeral_suffix hwell (number.stopsBefore_of_head fun c hc => by
    obtain rfl : '=' = c := by simpa using hc
    rfl)

structure IsAssignment (line : List Char) (number written : Numeral) : Prop where
  number_wellFormed : number.WellFormed
  written_wellFormed : written.WellFormed
  line_eq : line = '$' :: (number.text ++ '=' :: written.text)

/-- The first number of the line, truncated, is the index, and the second one is the value. -/
def AsksToStore (line : List Char) (index : UInt32) (value : Float) : Prop :=
  ∃ number written, IsAssignment line number written ∧ number.value.isFinite = true ∧
    truncation (exactValue number.value) = index.toNat ∧ written.value = value

/-- There is no number at a column where one has to be: behind the `$`, or behind the `=` after the
first number. -/
def LacksNumber (line : List Char) (column : Nat) : Prop :=
  ∃ body, line = '$' :: body ∧ body ≠ [] ∧
    (NoNumber body ∧ column = 1 ∨
      ∃ number rest, LongestNumber number body ∧ body = number ++ '=' :: rest ∧ NoNumber rest ∧
        column = number.length + 2)

namespace SettingsStatement

variable {body : List Char} {index : UInt32} {value : Float} {column : Nat}

theorem parse_nil : parse ['$'] = .ok .list := rfl

theorem parse_cons (nonempty : body ≠ []) :
    parse ('$' :: body) =
      match scanNumeral body with
      | none => .error (.badNumberFormat 1)
      | some (number, '=' :: rest) =>
        match scanNumeral rest with
        | none => .error (.badNumberFormat (number.text.length + 2))
        | some (written, []) =>
          match settingNumber? number.value with
          | some index => .ok (.store index written.value)
          | none => .error (.unsupportedStatement (String.ofList ('$' :: body)))
        | some _ => .error (.unsupportedStatement (String.ofList ('$' :: body)))
      | some _ => .error (.unsupportedStatement (String.ofList ('$' :: body))) := by
  obtain ⟨first, others, rfl⟩ := List.exists_cons_of_ne_nil nonempty
  rfl

theorem parse_of_asksToStore (h : AsksToStore ('$' :: body) index value) :
    parse ('$' :: body) = .ok (.store index value) := by
  obtain ⟨number, written, ⟨hnumber, hwritten, hline⟩, hfinite, htruncated, rfl⟩ := h
  obtain rfl := (List.cons.inj hline).2
  rw [parse_cons (by simp), scanNumeral_before_equals hnumber]
  simp only [scanNumeral_text_self hwritten,
    settingNumber?_eq_some_iff.2 ⟨hfinite, htruncated⟩]

theorem parse_of_lacksNumber (h : LacksNumber ('$' :: body) column) :
    parse ('$' :: body) = .error (.badNumberFormat column) := by
  obtain ⟨_, hline, hnonempty, hlacks⟩ := h
  obtain rfl := (List.cons.inj hline).2
  rw [parse_cons hnonempty]
  rcases hlacks with ⟨hno, rfl⟩ | ⟨text, rest, hlongest, rfl, hno, rfl⟩
  · rw [scanNumeral_eq_none_iff.2 hno]
  · obtain ⟨number, hwell, rfl⟩ := number_iff.1 hlongest.isNumber
    rw [scanNumeral_before_equals hwell]
    simp only [scanNumeral_eq_none_iff.2 hno]

theorem parse_cases (body : List Char) :
    (body = [] ∧ parse ('$' :: body) = .ok .list) ∨
    (∃ index value, AsksToStore ('$' :: body) index value ∧
      parse ('$' :: body) = .ok (.store index value)) ∨
    (∃ column, LacksNumber ('$' :: body) column ∧
      parse ('$' :: body) = .error (.badNumberFormat column)) ∨
    parse ('$' :: body) = .error (.unsupportedStatement (String.ofList ('$' :: body))) := by
  by_cases hempty : body = []
  · exact .inl ⟨hempty, by rw [hempty, parse_nil]⟩
  · refine .inr ?_
    rw [parse_cons hempty]
    split
    · next hnone =>
        exact .inr (.inl ⟨1, ⟨body, rfl, hempty, .inl ⟨scanNumeral_eq_none_iff.1 hnone, rfl⟩⟩, rfl⟩)
    · next number rest hnumber =>
        have hbody := scanNumeral_text hnumber
        split
        · next hnone =>
            exact .inr (.inl ⟨_, ⟨body, rfl, hempty, .inr ⟨number.text, rest,
              scanNumeral_longest hnumber, hbody, scanNumeral_eq_none_iff.1 hnone, rfl⟩⟩, rfl⟩)
        · next written hwritten =>
            have hrest := scanNumeral_text hwritten
            rw [List.append_nil] at hrest
            split
            · next index hindex =>
                obtain ⟨hfinite, htruncated⟩ := settingNumber?_eq_some_iff.1 hindex
                exact .inl ⟨index, written.value, ⟨number, written,
                  ⟨(scanNumeral_wellFormed hnumber).1, (scanNumeral_wellFormed hwritten).1,
                    by rw [hbody, hrest]⟩, hfinite, htruncated, rfl⟩, rfl⟩
            · exact .inr (.inr rfl)
        · exact .inr (.inr rfl)
    · exact .inr (.inr rfl)

theorem parse_eq_list_iff : parse ('$' :: body) = .ok .list ↔ '$' :: body = ['$'] := by
  refine ⟨fun h => ?_, fun h => by rw [h, parse_nil]⟩
  rcases parse_cases body with ⟨rfl, -⟩ | ⟨_, _, -, hparse⟩ | ⟨_, -, hparse⟩ | hparse
  · rfl
  all_goals simp [hparse] at h

theorem parse_eq_store_iff :
    parse ('$' :: body) = .ok (.store index value) ↔ AsksToStore ('$' :: body) index value := by
  refine ⟨fun h => ?_, parse_of_asksToStore⟩
  rcases parse_cases body with ⟨rfl, hparse⟩ | ⟨_, _, hasks, hparse⟩ | ⟨_, -, hparse⟩ | hparse
  · simp [hparse] at h
  · rw [hparse] at h
    cases h
    exact hasks
  all_goals simp [hparse] at h

example : parse "$7=28.9".toList = .ok (.store 7 28.9) := rfl

theorem parse_eq_badNumberFormat_iff :
    parse ('$' :: body) = .error (.badNumberFormat column) ↔ LacksNumber ('$' :: body) column := by
  refine ⟨fun h => ?_, parse_of_lacksNumber⟩
  rcases parse_cases body with ⟨rfl, hparse⟩ | ⟨_, _, -, hparse⟩ | ⟨_, hlacks, hparse⟩ | hparse
  · simp [hparse] at h
  · simp [hparse] at h
  · rw [hparse] at h
    cases h
    exact hlacks
  · simp [hparse] at h

end SettingsStatement

/-! ## What is asked of the settings -/

/-- Settings together with what was asked of them, in order. -/
structure Recorded (σ : Type) where
  settings : σ
  calls : List SettingsStatement

namespace Recorded

variable {σ : Type} [SettingsHost σ]

instance : SettingsHost (Recorded σ) where
  store index value recorded :=
    let (stored, settings) := SettingsHost.store index value recorded.settings
    (stored, ⟨settings, recorded.calls ++ [.store index value]⟩)
  list recorded := ⟨SettingsHost.list recorded.settings, recorded.calls ++ [.list]⟩

theorem executeSettings_eq (line : List Char) (recorded : Recorded σ) :
    executeSettings line recorded =
      ((executeSettings line recorded.settings).1,
        ⟨(executeSettings line recorded.settings).2,
          recorded.calls ++ (SettingsStatement.parse line).toOption.toList⟩) := by
  unfold executeSettings
  cases SettingsStatement.parse line with
  | error error => simp [Except.toOption]
  | ok statement =>
      cases statement with
      | list => rfl
      | store index value =>
          simp only [SettingsHost.store]
          cases (SettingsHost.store index value recorded.settings).1 <;> rfl

end Recorded

variable {σ : Type} [SettingsHost σ]

theorem executeSettings_eq_ok_iff {line : List Char} {settings : σ} :
    (executeSettings line settings).1 = .ok () ↔
      SettingsStatement.parse line = .ok .list ∨
        ∃ index value, SettingsStatement.parse line = .ok (.store index value) ∧
          (SettingsHost.store index value settings).1 = .ok () := by
  unfold executeSettings
  cases SettingsStatement.parse line with
  | error error => simp
  | ok statement =>
      cases statement with
      | list => simp
      | store index value =>
          rcases hstore : SettingsHost.store index value settings with ⟨_ | _, after⟩ <;>
            simp [hstore, and_assoc]

theorem executeSettings_eq_error_iff {line : List Char} {settings : σ} {error : LineError}
    (other : error ≠ .unsupportedStatement (String.ofList line)) :
    (executeSettings line settings).1 = .error error ↔
      SettingsStatement.parse line = .error error := by
  unfold executeSettings
  cases SettingsStatement.parse line with
  | error error => simp
  | ok statement =>
      cases statement with
      | list => simp
      | store index value =>
          simp only [reduceCtorEq, iff_false]
          cases (SettingsHost.store index value settings).1 with
          | ok => nofun
          | error => exact fun h => other (Except.error.inj h).symm

theorem ofResult_eq_ok_iff {result : Except LineError Unit} :
    StatusCode.ofResult result = .ok ↔ result = .ok () := by
  cases result with
  | ok => simp [StatusCode.ofResult]
  | error error => simp [StatusCode.ofResult, LineError.status_ne_ok]

theorem ofResult_eq_badNumberFormat_iff {result : Except LineError Unit} :
    StatusCode.ofResult result = .badNumberFormat ↔
      ∃ column, result = .error (.badNumberFormat column) := by
  cases result with
  | ok => simp [StatusCode.ofResult]
  | error error => cases error <;> simp [StatusCode.ofResult, LineError.status]

theorem executeSettings_trichotomy (body : List Char) (settings : σ) :
    (executeSettings ('$' :: body) settings).1 = .ok () ∨
      (∃ column, (executeSettings ('$' :: body) settings).1 = .error (.badNumberFormat column)) ∨
      (executeSettings ('$' :: body) settings).1 =
        .error (.unsupportedStatement (String.ofList ('$' :: body))) := by
  cases hstatus : (executeSettings ('$' :: body) settings).1 with
  | ok => exact .inl rfl
  | error error =>
      refine .inr ?_
      by_cases hother : error = .unsupportedStatement (String.ofList ('$' :: body))
      · exact .inr (congrArg _ hother)
      · have hparse := (executeSettings_eq_error_iff hother).1 hstatus
        rcases SettingsStatement.parse_cases body with
          ⟨-, h⟩ | ⟨_, _, -, h⟩ | ⟨column, -, h⟩ | h <;> rw [hparse] at h
        · contradiction
        · contradiction
        · exact .inl ⟨column, congrArg _ (Except.error.inj h)⟩
        · exact absurd (Except.error.inj h) hother

/-! ## Written indices -/

theorem IsAssignment.unique {line : List Char} {number written other otherWritten : Numeral}
    (h : IsAssignment line number written) (hother : IsAssignment line other otherWritten) :
    number = other := by
  have htext := (List.cons.inj (h.line_eq.symm.trans hother.line_eq)).2
  have hscan := scanNumeral_before_equals h.number_wellFormed written.text
  rw [htext, scanNumeral_before_equals hother.number_wellFormed] at hscan
  exact (Prod.mk.inj (Option.some.inj hscan)).1.symm

theorem index_of_written {number : Numeral} {index : UInt32}
    (finite : number.value.isFinite = true)
    (truncated : truncation (exactValue number.value) = index.toNat) :
    -1 < number.number ∧ ⌊number.number⌋₊ ≤ index.toNat := by
  constructor
  · by_contra hle
    have hvalue : exactValue number.value ≤ -1 := by
      have hread : number.number ≤ -((1 : ℕ) : ℚ) → exactValue number.value ≤ -((1 : ℕ) : ℚ) :=
        (Numeral.le_exactValue one_pos (by norm_num) finite).2
      rw [Nat.cast_one] at hread
      exact hread (not_lt.1 hle)
    have hceil : ⌈exactValue number.value⌉ ≤ -1 := Int.ceil_le.2 (by exact_mod_cast hvalue)
    rw [truncation, if_pos (by linarith)] at truncated
    omega
  · have hindex : index.toNat < 2 ^ 32 := index.toNat_lt
    suffices h : min ⌊number.number⌋₊ (2 ^ 32) ≤ index.toNat by omega
    rcases Nat.eq_zero_or_pos ⌊number.number⌋₊ with hzero | hpositive
    · simp [hzero]
    · have hnonneg : 0 ≤ number.number := (Nat.pos_of_floor_pos hpositive).le
      have hreached : ((min ⌊number.number⌋₊ (2 ^ 32) : ℕ) : ℚ) ≤ number.number :=
        (Nat.cast_le.2 (min_le_left _ _)).trans (Nat.floor_le hnonneg)
      have hread := (Numeral.le_exactValue (lt_min hpositive (by norm_num))
        ((min_le_right _ _).trans (by norm_num)) finite).1 hreached
      rw [truncation_of_nonneg ((Nat.cast_nonneg _).trans hread), Nat.cast_inj] at truncated
      rw [← truncated]
      exact Nat.le_floor hread

/-- A `$` line lists the settings exactly if nothing follows the `$`.  It stores a value exactly if
it is an assignment whose first number is an index after truncation, and then it asks for this once.
All other lines ask for nothing.  The status is that of the listing or the store, of a number that
is not there, or of a statement without meaning. -/
theorem execute_settings_verdict (body : List Char) (state : ModalState) (settings : σ) :
    let line := '$' :: body
    let outcome := execute line state (Recorded.mk settings [])
    let calls := outcome.settings.calls
    (outcome.status = (execute line state settings).status ∧
      outcome.settings.settings = (execute line state settings).settings) ∧
    (calls = [.list] ↔ line = ['$']) ∧
    (∀ index value, calls = [.store index value] ↔ AsksToStore line index value) ∧
    (calls = [] ∨ ∃ call, calls = [call]) ∧
    (∀ index value number written, IsAssignment line number written →
      calls = [.store index value] → -1 < number.number ∧ ⌊number.number⌋₊ ≤ index.toNat) ∧
    (outcome.status = .ok ↔
      line = ['$'] ∨ ∃ index value, AsksToStore line index value ∧
        (SettingsHost.store index value settings).1 = .ok ()) ∧
    (outcome.status = .badNumberFormat ↔ ∃ column, LacksNumber line column) ∧
    (outcome.status = .ok ∨ outcome.status = .badNumberFormat ∨
      outcome.status = .unsupportedStatement) := by
  intro line outcome calls
  have hcalls : calls = (SettingsStatement.parse line).toOption.toList := by
    simp only [calls, outcome, line, execute, Recorded.executeSettings_eq, List.nil_append]
  have hcall (statement : SettingsStatement) :
      calls = [statement] ↔ SettingsStatement.parse line = .ok statement := by
    rw [hcalls]
    cases SettingsStatement.parse line <;> simp [Except.toOption]
  have hstatus : outcome.status = .ofResult (executeSettings line settings).1 := by
    simp only [outcome, line, execute, Outcome.status, Recorded.executeSettings_eq]
  refine ⟨?_, ?_, ?_, ?_, ?_, ?_, ?_, ?_⟩
  · simp only [outcome, line, execute, Outcome.status, Recorded.executeSettings_eq, and_self]
  · rw [hcall, SettingsStatement.parse_eq_list_iff]
  · intro index value
    rw [hcall, SettingsStatement.parse_eq_store_iff]
  · rw [hcalls]
    cases SettingsStatement.parse line <;> simp [Except.toOption]
  · intro index value number written hassignment hstore
    rw [hcall, SettingsStatement.parse_eq_store_iff] at hstore
    obtain ⟨other, otherWritten, hother, hfinite, htruncated, -⟩ := hstore
    obtain rfl := hassignment.unique hother
    exact index_of_written hfinite htruncated
  · rw [hstatus, ofResult_eq_ok_iff]
    simp only [executeSettings_eq_ok_iff, line, SettingsStatement.parse_eq_list_iff,
      SettingsStatement.parse_eq_store_iff]
  · rw [hstatus, ofResult_eq_badNumberFormat_iff]
    refine exists_congr fun column => ?_
    have hother : LineError.badNumberFormat column ≠ .unsupportedStatement (String.ofList line) :=
      LineError.noConfusion
    rw [executeSettings_eq_error_iff hother, SettingsStatement.parse_eq_badNumberFormat_iff]
  · rw [hstatus]
    rcases executeSettings_trichotomy body settings with h | ⟨column, h⟩ | h
    · exact .inl (by rw [h]; rfl)
    · exact .inr (.inl (by rw [h]; rfl))
    · exact .inr (.inr (by rw [h]; rfl))

end Gcode
