import Gcode.Proofs.Words.Scan
import Gcode.Code
import Mathlib.Data.List.TakeWhile
import Mathlib.Tactic.SplitIfs

/-!
# The leftmost failing word

A word fails if it has no letter or no number, or if its letter is `G` or `M` and its number means
nothing.  `leftmostFault?` walks through a line to the first word that fails.  The line cut off
before that word has no fault, and its words are the words of the whole line up to there.
-/

namespace Gcode

/-! ## Supported words -/

def Word.isSupported (word : Word) : Bool :=
  if word.letter = 'G' then (GCode.ofNumber? (truncatedCode word.value)).isSome
  else if word.letter = 'M' then (MCode.ofNumber? (truncatedCode word.value)).isSome
  else true

theorem Command.ofWord_of_isSupported {word : Word} (h : word.isSupported = true) :
    ∃ command, Command.ofWord word = .ok command := by
  unfold Word.isSupported at h
  unfold Command.ofWord
  split_ifs at h ⊢ with hG hM
  · obtain ⟨code, hcode⟩ := Option.isSome_iff_exists.1 h
    exact ⟨.g code, by rw [hcode]⟩
  · obtain ⟨code, hcode⟩ := Option.isSome_iff_exists.1 h
    exact ⟨.m code, by rw [hcode]⟩
  · exact ⟨_, rfl⟩
  · exact ⟨_, rfl⟩

theorem Command.ofWord_of_not_isSupported {word : Word} (h : ¬ word.isSupported = true) :
    Command.ofWord word = .error (.unsupportedWord word.letter word.value) := by
  unfold Word.isSupported at h
  unfold Command.ofWord
  split_ifs at h ⊢ with hG hM
  · rw [Option.not_isSome_iff_eq_none.1 h]
  · rw [Option.not_isSome_iff_eq_none.1 h]
  · exact absurd rfl h
  · exact absurd rfl h

/-! ## Faults -/

deriving instance DecidableEq for Word

inductive WordFault where
  | noLetter (found : Char)
  | noNumber
  | unsupported (word : Word)
  deriving DecidableEq, Repr

namespace WordFault

def error (column : Nat) : WordFault → LineError
  | noLetter found => .expectedCommandLetter column found
  | noNumber => .badNumberFormat (column + 1)
  | unsupported word => .unsupportedWord word.letter word.value

def status : WordFault → StatusCode
  | noLetter _ => .expectedCommandLetter
  | noNumber => .badNumberFormat
  | unsupported _ => .unsupportedStatement

@[simp] theorem status_error (fault : WordFault) (column : Nat) :
    (fault.error column).status = fault.status := by
  cases fault <;> rfl

end WordFault

/-- The column and the fault of the first failing word in a text that stands at a column. -/
def leftmostFaultFrom (column : Nat) : List Char → Option (Nat × WordFault)
  | [] => none
  | letter :: rest =>
    if isCommandLetter letter then
      match _found : scanNumeral rest with
      | none => some (column, .noNumber)
      | some (numeral, after) =>
        if Word.isSupported ⟨letter, numeral.value⟩ then
          leftmostFaultFrom (column + 1 + numeral.text.length) after
        else some (column, .unsupported ⟨letter, numeral.value⟩)
    else some (column, .noLetter letter)
termination_by text => text.length
decreasing_by exact Nat.lt_succ_of_lt (scanNumeral_length _found)

def leftmostFault? (text : List Char) : Option (Nat × WordFault) := leftmostFaultFrom 0 text

def wordsOf (text : List Char) : List Word := (scanWords text).words.map PlacedWord.word

structure Faultless (text : List Char) : Prop where
  scanned : (scanWords text).failure = none
  supported : ∀ word ∈ wordsOf text, word.isSupported = true

instance (text : List Char) : Decidable (Faultless text) :=
  decidable_of_iff
    ((scanWords text).failure = none ∧ ∀ word ∈ wordsOf text, word.isSupported = true)
    ⟨fun h => ⟨h.1, h.2⟩, fun h => ⟨h.scanned, h.supported⟩⟩

theorem leftmostFaultFrom_eq_none_iff (column : Nat) (text : List Char) :
    leftmostFaultFrom column text = none ↔
      (scanWordsFrom column text).failure = none ∧
        ∀ placed ∈ (scanWordsFrom column text).words, placed.word.isSupported = true := by
  fun_induction leftmostFaultFrom column text with
  | case1 column => simp
  | case2 column letter rest hletter hnumber =>
      simp [scanWordsFrom_noNumber hletter hnumber]
  | case3 column letter rest hletter numeral after hnumber hsupported ih =>
      simp [scanWordsFrom_word hletter hnumber, hsupported, ih]
  | case4 column letter rest hletter numeral after hnumber hsupported =>
      simp [scanWordsFrom_word hletter hnumber, hsupported]
  | case5 column letter rest hletter =>
      simp [scanWordsFrom_noLetter hletter]

theorem leftmostFault?_eq_none_iff {text : List Char} :
    leftmostFault? text = none ↔ Faultless text := by
  rw [leftmostFault?, leftmostFaultFrom_eq_none_iff]
  constructor
  · rintro ⟨hscanned, hsupported⟩
    refine ⟨hscanned, fun word hword => ?_⟩
    obtain ⟨placed, hplaced, rfl⟩ := List.mem_map.1 hword
    exact hsupported placed hplaced
  · rintro ⟨hscanned, hsupported⟩
    exact ⟨hscanned, fun placed hplaced => hsupported _ (List.mem_map_of_mem hplaced)⟩

theorem leftmostFaultFrom_error (column : Nat) (text : List Char) :
    (((scanWordsFrom column text).words.find? fun placed => !placed.word.isSupported).map
        fun placed => LineError.unsupportedWord placed.word.letter placed.word.value).or
      (scanWordsFrom column text).failure =
    (leftmostFaultFrom column text).map fun fault => fault.2.error fault.1 := by
  fun_induction leftmostFaultFrom column text with
  | case1 column => simp
  | case2 column letter rest hletter hnumber =>
      simp [scanWordsFrom_noNumber hletter hnumber, WordFault.error]
  | case3 column letter rest hletter numeral after hnumber hsupported ih =>
      rw [scanWordsFrom_word hletter hnumber, ← ih]
      simp [hsupported]
  | case4 column letter rest hletter numeral after hnumber hsupported =>
      simp [scanWordsFrom_word hletter hnumber, hsupported, WordFault.error]
  | case5 column letter rest hletter =>
      simp [scanWordsFrom_noLetter hletter, WordFault.error]

theorem Faultless.takeWhile_isSupported {text : List Char} (h : Faultless text) :
    (wordsOf text).takeWhile Word.isSupported = wordsOf text :=
  List.takeWhile_eq_self_iff.2 h.supported

/-! ## Cutting a line off before its fault -/

theorem leftmostFaultFrom_cut {column stop : Nat} {text : List Char} {fault : WordFault}
    (h : leftmostFaultFrom column text = some (stop, fault)) :
    ∃ before rest, text = before ++ rest ∧ stop = column + byteLength before ∧
      leftmostFaultFrom stop rest = some (stop, fault) ∧
      (scanWordsFrom column before).failure = none ∧
      (scanWordsFrom column before).words =
        (scanWordsFrom column text).words.takeWhile (·.word.isSupported) := by
  fun_induction leftmostFaultFrom column text with
  | case1 column => contradiction
  | case2 column letter rest hletter hnumber =>
      have hhere : leftmostFaultFrom column (letter :: rest) = some (column, .noNumber) := by
        rw [leftmostFaultFrom, if_pos hletter]
        split <;> simp_all
      cases h
      exact ⟨[], _, rfl, rfl, hhere, by simp, by simp [scanWordsFrom_noNumber hletter hnumber]⟩
  | case3 column letter rest hletter numeral after hnumber hsupported ih =>
      obtain ⟨before, cut, rfl, rfl, hthere, hfailure, hwords⟩ := ih h
      have hwell := (scanNumeral_wellFormed hnumber).1
      have hshort := scanNumeral_cut hnumber
      have hbytes : column + 1 + numeral.text.length + byteLength before =
          column + byteLength (letter :: (numeral.text ++ before)) := by
        rw [byteLength_cons, byteLength_append, byteLength_numeral hwell,
          utf8Size_of_isCommandLetter hletter]
        omega
      refine ⟨letter :: (numeral.text ++ before), cut, ?_, hbytes, hthere, ?_, ?_⟩
      · rw [scanNumeral_text hnumber, List.cons_append, List.append_assoc]
      · rw [scanWordsFrom_word hletter hshort]
        exact hfailure
      · rw [scanWordsFrom_word hletter hshort, scanWordsFrom_word hletter hnumber, hwords]
        simp [hsupported]
  | case4 column letter rest hletter numeral after hnumber hsupported =>
      have hhere : leftmostFaultFrom column (letter :: rest) =
          some (column, .unsupported ⟨letter, numeral.value⟩) := by
        rw [leftmostFaultFrom, if_pos hletter]
        split <;> simp_all
      cases h
      exact ⟨[], _, rfl, rfl, hhere, by simp,
        by simp [scanWordsFrom_word hletter hnumber, hsupported]⟩
  | case5 column letter rest hletter =>
      have hhere : leftmostFaultFrom column (letter :: rest) = some (column, .noLetter letter) := by
        rw [leftmostFaultFrom, if_neg hletter]
      cases h
      exact ⟨[], _, rfl, rfl, hhere, by simp, by simp [scanWordsFrom_noLetter hletter]⟩

theorem leftmostFault?_cut {text : List Char} {column : Nat} {fault : WordFault}
    (h : leftmostFault? text = some (column, fault)) :
    ∃ before rest, text = before ++ rest ∧ byteLength before = column ∧
      leftmostFaultFrom column rest = some (column, fault) ∧ Faultless before ∧
      wordsOf before = (wordsOf text).takeWhile Word.isSupported := by
  obtain ⟨before, rest, htext, hcolumn, hrest, hfailure, hwords⟩ := leftmostFaultFrom_cut h
  have hbefore : wordsOf before = (wordsOf text).takeWhile Word.isSupported := by
    rw [wordsOf, scanWords, hwords, wordsOf, scanWords, List.takeWhile_map]
    rfl
  refine ⟨before, rest, htext, by omega, hrest, ⟨hfailure, fun word hword => ?_⟩, hbefore⟩
  rw [hbefore] at hword
  exact List.all_eq_true.1 List.all_takeWhile word hword

end Gcode
