import Gcode.Reply
import Gcode.Text.Position

/-!
# Words

A line is a row of words, each a letter from `A` to `Z` with a number right behind it.
`scanWords` reads as many words as it can and reports the fault at which it stops, if there is
one; a fault never takes words before it away.

Columns and cursors are byte offsets in the line's UTF-8 text.  A number is ASCII, so it takes as
many bytes as characters.
-/

namespace Gcode

structure Word where
  letter : Char
  value : Float
  deriving Repr

/-- A word with the column of its letter and the column behind its number. -/
structure PlacedWord where
  word : Word
  start : Nat
  stop : Nat
  deriving Repr

structure Scan where
  words : List PlacedWord
  failure : Option LineError
  deriving Repr

def isCommandLetter (c : Char) : Bool := 'A' ≤ c && c ≤ 'Z'

/-! ## One number -/

def numberAt (line : List Char) (start : Nat) : Except LineError (Float × Nat) :=
  match (suffixAt line start).bind scanNumeral with
  | some (numeral, _) => .ok (numeral.value, start + numeral.text.length)
  | none => .error (.badNumberFormat start)

/-! ## One word -/

/-- The word at the start of a text that stands at a column, and the text behind it; no word at the
end of the text. -/
def scanWord (column : Nat) : List Char → Except LineError (Option (PlacedWord × List Char))
  | [] => .ok none
  | letter :: rest =>
    if isCommandLetter letter then
      match scanNumeral rest with
      | some (numeral, after) =>
        .ok (some (⟨⟨letter, numeral.value⟩, column, column + 1 + numeral.text.length⟩, after))
      | none => .error (.badNumberFormat (column + 1))
    else .error (.expectedCommandLetter column letter)

/-- The word at a cursor.  Past the end of the line and inside a character there is none. -/
def wordAt (line : List Char) (cursor : Nat) : Except LineError (Option PlacedWord) :=
  match suffixAt line cursor with
  | none => .ok none
  | some rest => (scanWord cursor rest).map (Option.map Prod.fst)

theorem scanWord_length {column : Nat} {text rest : List Char} {placed : PlacedWord}
    (scanned : scanWord column text = .ok (some (placed, rest))) : rest.length < text.length := by
  cases text with
  | nil => simp [scanWord] at scanned
  | cons letter text =>
    simp only [scanWord] at scanned
    split at scanned
    · split at scanned
      · next numeral after found =>
        obtain ⟨_, rfl⟩ := Prod.mk.inj (Option.some.inj (Except.ok.inj scanned))
        exact Nat.lt_succ_of_lt (scanNumeral_length found)
      · simp at scanned
    · simp at scanned

/-! ## All words -/

def scanWordsFrom (column : Nat) (text : List Char) : Scan :=
  match _found : scanWord column text with
  | .error error => ⟨[], some error⟩
  | .ok none => ⟨[], none⟩
  | .ok (some (placed, rest)) =>
    let scan := scanWordsFrom placed.stop rest
    ⟨placed :: scan.words, scan.failure⟩
termination_by text.length
decreasing_by exact scanWord_length _found

def scanWordsAt (line : List Char) (cursor : Nat) : Scan :=
  match suffixAt line cursor with
  | none => ⟨[], none⟩
  | some rest => scanWordsFrom cursor rest

def scanWords (line : List Char) : Scan := scanWordsFrom 0 line

def Scan.cursor (scan : Scan) (cursor : Nat) : Nat :=
  (scan.words.getLast?.map PlacedWord.stop).getD cursor

def Scan.result (scan : Scan) : Except LineError (List PlacedWord) :=
  match scan.failure with
  | none => .ok scan.words
  | some error => .error error

@[simp] theorem scanWordsAt_zero (line : List Char) : scanWordsAt line 0 = scanWords line := by
  simp [scanWordsAt, scanWords]

end Gcode
