import Gcode.Proofs.Words.Bytes

/-!
# Words from a cursor

A `WordReader` stands at a cursor and delivers one word after the other, and the fault at which it
stops.  It may be put down anywhere in a line.  `WordReader.take_startingAt` says that it delivers
the items of `scanWordsAt` and nothing after them, and `scanWordsAt_readerAfter` that a new reader
at a cursor it has reached delivers what was left.
-/

namespace Gcode

/-! ## One word and the others -/

theorem scanWord_reaches {line text rest : List Char} {cursor : Nat} {placed : PlacedWord}
    (hsuffix : suffixAt line cursor = some text)
    (hword : scanWord cursor text = .ok (some (placed, rest))) :
    cursor + 2 ≤ placed.stop ∧ suffixAt line placed.stop = some rest := by
  cases text with
  | nil => simp [scanWord] at hword
  | cons letter text =>
      by_cases hletter : isCommandLetter letter = true
      · cases hnumber : scanNumeral text with
        | none => simp [scanWord, hletter, hnumber] at hword
        | some read =>
            obtain ⟨numeral, after⟩ := read
            simp only [scanWord, hletter, hnumber, if_true, Except.ok.injEq, Option.some.injEq,
              Prod.mk.injEq] at hword
            obtain ⟨rfl, rfl⟩ := hword
            have hwell := (scanNumeral_wellFormed hnumber).1
            have htext := scanNumeral_text hnumber
            have hshorter := scanNumeral_length hnumber
            rw [htext, List.length_append] at hshorter
            obtain ⟨before, rfl, rfl⟩ := suffixAt_eq_some_iff.1 hsuffix
            refine ⟨by simp only; omega,
              suffixAt_eq_some_iff.2 ⟨before ++ letter :: numeral.text, ?_, ?_⟩⟩
            · rw [htext, List.append_assoc, List.cons_append]
            · rw [byteLength_append, column_add_byteLength_word hletter hwell]
      · simp [scanWord, hletter] at hword

theorem scanWordsAt_cases (line : List Char) (cursor : Nat) :
    wordAt line cursor = .ok none ∧ scanWordsAt line cursor = ⟨[], none⟩ ∨
      (∃ error, wordAt line cursor = .error error ∧ scanWordsAt line cursor = ⟨[], some error⟩) ∨
      ∃ placed rest, wordAt line cursor = .ok (some placed) ∧ cursor + 2 ≤ placed.stop ∧
        suffixAt line placed.stop = some rest ∧
        scanWordsAt line cursor = ⟨placed :: (scanWordsAt line placed.stop).words,
          (scanWordsAt line placed.stop).failure⟩ := by
  cases hsuffix : suffixAt line cursor with
  | none => exact .inl ⟨by rw [wordAt, hsuffix], by rw [scanWordsAt, hsuffix]⟩
  | some text =>
      have hword : wordAt line cursor = (scanWord cursor text).map (Option.map Prod.fst) := by
        rw [wordAt, hsuffix]
      have hwords : scanWordsAt line cursor = scanWordsFrom cursor text := by
        rw [scanWordsAt, hsuffix]
      rw [scanWordsFrom] at hwords
      split at hwords
      · next error hscan => exact .inr (.inl ⟨error, by rw [hword, hscan]; rfl, hwords⟩)
      · next hscan => exact .inl ⟨by rw [hword, hscan]; rfl, hwords⟩
      · next placed rest hscan =>
          obtain ⟨hreaches, hrest⟩ := scanWord_reaches hsuffix hscan
          have hothers : scanWordsAt line placed.stop = scanWordsFrom placed.stop rest := by
            rw [scanWordsAt, hrest]
          exact .inr (.inr ⟨placed, rest, by rw [hword, hscan]; rfl, hreaches, hrest,
            by rw [hwords, hothers]⟩)

theorem wordAt_reaches {line : List Char} {cursor : Nat} {placed : PlacedWord}
    (hword : wordAt line cursor = .ok (some placed)) :
    cursor + 2 ≤ placed.stop ∧ ∃ rest, suffixAt line placed.stop = some rest := by
  rcases scanWordsAt_cases line cursor with ⟨hnone, -⟩ | ⟨error, herror, -⟩ |
    ⟨other, rest, hother, hreaches, hrest, -⟩
  · simp [hnone] at hword
  · simp [herror] at hword
  · obtain rfl : other = placed := by simpa [hother] using hword
    exact ⟨hreaches, rest, hrest⟩

theorem le_byteLength_of_suffixAt {line rest : List Char} {cursor : Nat}
    (hsuffix : suffixAt line cursor = some rest) : cursor ≤ byteLength line := by
  obtain ⟨before, rfl, rfl⟩ := suffixAt_eq_some_iff.1 hsuffix
  rw [byteLength_append]
  exact Nat.le_add_right _ _

theorem length_words_scanWordsAt (line : List Char) (cursor : Nat) :
    2 * (scanWordsAt line cursor).words.length ≤ byteLength line - cursor := by
  rcases scanWordsAt_cases line cursor with ⟨-, hscan⟩ | ⟨error, -, hscan⟩ |
    ⟨placed, rest, -, hreaches, hrest, hscan⟩
  · simp [hscan]
  · simp [hscan]
  · have hinside := le_byteLength_of_suffixAt hrest
    have hothers := length_words_scanWordsAt line placed.stop
    rw [hscan, List.length_cons]
    omega
termination_by byteLength line - cursor

theorem cursor_eq_byteLength_of_failure_eq_none {line text : List Char} {start : Nat}
    (hsuffix : suffixAt line start = some text) (hnone : (scanWordsAt line start).failure = none) :
    (scanWordsAt line start).cursor start = byteLength line := by
  have hscan : scanWordsAt line start = scanWordsFrom start text := by rw [scanWordsAt, hsuffix]
  obtain ⟨before, rfl, rfl⟩ := suffixAt_eq_some_iff.1 hsuffix
  obtain ⟨rest, htiles, hend⟩ := scanWordsFrom_tiles (byteLength before) text
  rw [hscan] at hnone ⊢
  rw [hend.failure_eq_none_iff.1 hnone] at htiles
  rw [byteLength_append]
  exact htiles.cursor_eq _

theorem exists_numberAt_eq_error_iff {line : List Char} {start : Nat} :
    (∃ error, numberAt line start = .error error) ↔
      ∀ text, suffixAt line start = some text → Grammar.NoNumber text := by
  cases hsuffix : suffixAt line start with
  | none => simp [numberAt, hsuffix]
  | some text =>
      rw [numberAt, hsuffix, Option.bind_some]
      cases hscan : scanNumeral text with
      | none => simpa using scanNumeral_eq_none_iff.1 hscan
      | some read => simpa [hscan] using mt scanNumeral_eq_none_iff.2 (by simp [hscan])

/-! ## Readers -/

structure WordReader where
  cursor : Nat
  failed : Bool
  deriving DecidableEq, Repr

def Scan.items (scan : Scan) : List (Except LineError Word) :=
  scan.words.map (fun placed => .ok placed.word) ++ scan.failure.toList.map .error

namespace WordReader

def startingAt (cursor : Nat) : WordReader := ⟨cursor, false⟩

def next (parse : List Char → Option Float) (line : List Char) (reader : WordReader) :
    Checked (Option (Except LineError Word) × WordReader) :=
  if reader.failed then return (none, reader)
  else do
    match ← Checked.wordAt parse line reader.cursor with
    | .ok none => return (none, reader)
    | .ok (some (word, stop)) => return (some (.ok word), { reader with cursor := stop })
    | .error error => return (some (.error error), { reader with failed := true })

def take (parse : List Char → Option Float) (line : List Char) :
    Nat → WordReader → Checked (List (Option (Except LineError Word)) × WordReader)
  | 0, reader => return ([], reader)
  | count + 1, reader => do
    let (item, after) ← reader.next parse line
    let (items, last) ← take parse line count after
    return (item :: items, last)

end WordReader

def Scan.readerAfter (scan : Scan) (start count : Nat) : WordReader where
  cursor := (Scan.mk (scan.words.take count) none).cursor start
  failed := decide (scan.words.length < count) && scan.failure.isSome

namespace WordReader

variable {parse : List Char → Option Float} {line : List Char}

theorem next_of_none (hparse : ReadsNumerals parse) {cursor : Nat}
    (hword : wordAt line cursor = .ok none) :
    (startingAt cursor).next parse line = pure (none, startingAt cursor) := by
  simp only [next, startingAt, Checked.wordAt_eq hparse, hword, pure_bind]
  rfl

theorem next_of_error (hparse : ReadsNumerals parse) {cursor : Nat} {error : LineError}
    (hword : wordAt line cursor = .error error) :
    (startingAt cursor).next parse line = pure (some (.error error), ⟨cursor, true⟩) := by
  simp only [next, startingAt, Checked.wordAt_eq hparse, hword, pure_bind]
  rfl

theorem next_of_word (hparse : ReadsNumerals parse) {cursor : Nat} {placed : PlacedWord}
    (hword : wordAt line cursor = .ok (some placed)) :
    (startingAt cursor).next parse line =
      pure (some (.ok placed.word), startingAt placed.stop) := by
  simp only [next, startingAt, Checked.wordAt_eq hparse, hword, pure_bind]
  rfl

theorem take_succ {reader after last : WordReader} {item : Option (Except LineError Word)}
    {items : List (Option (Except LineError Word))} {count : Nat}
    (hnext : reader.next parse line = pure (item, after))
    (hafter : take parse line count after = pure (items, last)) :
    take parse line (count + 1) reader = pure (item :: items, last) := by
  simp only [take, hnext, hafter, pure_bind]

theorem take_of_exhausted {reader : WordReader} (h : reader.next parse line = pure (none, reader))
    (count : Nat) : take parse line count reader = pure (List.replicate count none, reader) := by
  induction count with
  | zero => rfl
  | succ count ih => exact take_succ h ih

theorem take_startingAt (hparse : ReadsNumerals parse) (line : List Char) (start count : Nat) :
    take parse line count (startingAt start) =
      pure ((List.range count).map fun index => (scanWordsAt line start).items[index]?,
        (scanWordsAt line start).readerAfter start count) := by
  induction count generalizing start with
  | zero => simp [take, Scan.readerAfter, Scan.cursor, startingAt]
  | succ count ih =>
      rcases scanWordsAt_cases line start with ⟨hword, hscan⟩ | ⟨error, hword, hscan⟩ |
        ⟨placed, rest, hword, -, -, hscan⟩
      · rw [take_of_exhausted (next_of_none hparse hword), hscan]
        simp [Scan.items, Scan.readerAfter, Scan.cursor, startingAt]
      · rw [take_succ (next_of_error hparse hword) (take_of_exhausted rfl count), hscan]
        simp [Scan.items, Scan.readerAfter, Scan.cursor, List.range_succ_eq_map, Function.comp_def]
      · rw [take_succ (next_of_word hparse hword) (ih placed.stop), hscan]
        simp [Scan.items, Scan.readerAfter, Scan.cursor_cons, List.range_succ_eq_map,
          Function.comp_def]

theorem scanWordsAt_readerAfter {start count : Nat}
    (hnot : ((scanWordsAt line start).readerAfter start count).failed = false) :
    scanWordsAt line ((scanWordsAt line start).readerAfter start count).cursor =
      ⟨(scanWordsAt line start).words.drop count, (scanWordsAt line start).failure⟩ := by
  induction count generalizing start with
  | zero => simp [Scan.readerAfter, Scan.cursor]
  | succ count ih =>
      rcases scanWordsAt_cases line start with ⟨-, hscan⟩ | ⟨error, -, hscan⟩ |
        ⟨placed, rest, -, -, -, hscan⟩
      · simp [hscan, Scan.readerAfter, Scan.cursor]
      -- behind a fault the cursor still stands in front of it
      · simp [hscan, Scan.readerAfter] at hnot
      · have hnot : ((scanWordsAt line placed.stop).readerAfter placed.stop count).failed =
            false := by
          simpa [hscan, Scan.readerAfter] using hnot
        rw [hscan, Scan.readerAfter, List.take_succ_cons, Scan.cursor_cons, List.drop_succ_cons]
        exact ih hnot

/-- One call delivers a word, and moves over two bytes or more to where a character of the line
ends.  Or it delivers none and stays where it is; then nothing ever comes behind. -/
def Advances (parse : List Char → Option Float) (line : List Char) (reader : WordReader) : Prop :=
  (∃ word after, reader.next parse line = pure (some (.ok word), after) ∧
    reader.cursor + 2 ≤ after.cursor ∧ after.cursor ≤ byteLength line ∧
    ∃ rest, suffixAt line after.cursor = some rest) ∨
  ∃ item after, reader.next parse line = pure (item, after) ∧ (∀ word, item ≠ some (.ok word)) ∧
    after.cursor = reader.cursor ∧
    ∀ count, take parse line count after = pure (List.replicate count none, after)

theorem advances (hparse : ReadsNumerals parse) (line : List Char) (reader : WordReader) :
    reader.Advances parse line := by
  obtain ⟨cursor, failed⟩ := reader
  cases failed with
  | true =>
      have hnext : next parse line ⟨cursor, true⟩ = pure (none, ⟨cursor, true⟩) := rfl
      exact .inr ⟨none, _, hnext, by simp, rfl, take_of_exhausted hnext⟩
  | false =>
      cases hword : wordAt line cursor with
      | error error =>
          exact .inr ⟨_, ⟨cursor, true⟩, next_of_error hparse hword, by simp, rfl,
            take_of_exhausted rfl⟩
      | ok found =>
          cases found with
          | none =>
              have hnext := next_of_none hparse hword
              exact .inr ⟨_, _, hnext, by simp, rfl, take_of_exhausted hnext⟩
          | some placed =>
              obtain ⟨hreaches, rest, hrest⟩ := wordAt_reaches hword
              exact .inl ⟨_, _, next_of_word hparse hword, hreaches,
                le_byteLength_of_suffixAt hrest, rest, hrest⟩

end WordReader

/-! ## Scanning from any cursor -/

/-- From any cursor the checked scanner reads the numbers and words of the line, and makes no access
that is not allowed.  A number fails only where none of the grammar starts.  A reader goes forward
with each word it delivers, has at most half as many as there are bytes, and is at an end with the
first call that delivers none; without a fault that is the end of the line.  From a cursor it has
reached, the rest can be read again. -/
theorem WordReader.safe_and_restartable {parse : List Char → Option Float}
    (hparse : ReadsNumerals parse) (line : List Char) (start : Nat) :
    (Checked.numberAt parse line start =
        pure ((numberAt line start).mapError fun _ => NumberFault.noDigit) ∧
      (Checked.numberAt parse line start = pure (.error .noDigit) ↔
        ∀ text, suffixAt line start = some text → Grammar.NoNumber text)) ∧
    Checked.wordAt parse line start = pure ((wordAt line start).map
      (Option.map fun placed => (placed.word, placed.stop))) ∧
    (∀ reader : WordReader, reader.Advances parse line) ∧
    (∀ count, take parse line count (startingAt start) =
      pure ((List.range count).map fun index => (scanWordsAt line start).items[index]?,
        (scanWordsAt line start).readerAfter start count)) ∧
    2 * (scanWordsAt line start).words.length ≤ byteLength line - start ∧
    ((∃ text, suffixAt line start = some text) → (scanWordsAt line start).failure = none →
      (scanWordsAt line start).cursor start = byteLength line) ∧
    ∀ count, ((scanWordsAt line start).readerAfter start count).failed = false →
      scanWordsAt line ((scanWordsAt line start).readerAfter start count).cursor =
        ⟨(scanWordsAt line start).words.drop count, (scanWordsAt line start).failure⟩ := by
  refine ⟨⟨Checked.numberAt_eq hparse line start, ?_⟩, Checked.wordAt_eq hparse line start,
    advances hparse line, take_startingAt hparse line start, length_words_scanWordsAt line start,
    fun ⟨_, hsuffix⟩ => cursor_eq_byteLength_of_failure_eq_none hsuffix,
    fun _ => scanWordsAt_readerAfter⟩
  rw [← exists_numberAt_eq_error_iff, Checked.numberAt_eq hparse]
  cases numberAt line start <;> simp [Except.mapError, pure, Except.pure]

/-- A reader of doubles that takes the texts of the grammar of numbers and no others. -/
def readDouble (text : List Char) : Option Float :=
  (scanNumeral text).bind fun read => if read.2.isEmpty then some read.1.value else none

theorem readsNumerals_readDouble : ReadsNumerals readDouble := by
  intro numeral hwell
  rw [readDouble, scanNumeral_text_self hwell]
  rfl

theorem WordReader.safe_and_restartable_accent :
    let line := ['G', '1', 'X', '2', 'é']
    ReadsNumerals readDouble ∧
      take readDouble line 4 (startingAt 0) = pure ([some (.ok ⟨'G', 1⟩), some (.ok ⟨'X', 2⟩),
        some (.error (.expectedCommandLetter 4 'é')), none], ⟨4, true⟩) ∧
      Checked.numberAt readDouble line 5 = pure (.error .noDigit) := by
  intro line
  have hend : scanWordsFrom 4 ['é'] = ⟨[], some (.expectedCommandLetter 4 'é')⟩ :=
    scanWordsFrom_noLetter (by decide)
  have hsecond : scanWordsFrom 2 ['X', '2', 'é'] =
      ⟨[⟨⟨'X', 2⟩, 2, 4⟩], some (.expectedCommandLetter 4 'é')⟩ := by
    have hnumber : scanNumeral ['2', 'é'] = some (⟨none, ['2'], none, none⟩, ['é']) := rfl
    rw [scanWordsFrom_word (by decide) hnumber]
    change Scan.mk (_ :: (scanWordsFrom 4 ['é']).words) (scanWordsFrom 4 ['é']).failure = _
    rw [hend]
    rfl
  have hscan : scanWordsAt line 0 =
      ⟨[⟨⟨'G', 1⟩, 0, 2⟩, ⟨⟨'X', 2⟩, 2, 4⟩], some (.expectedCommandLetter 4 'é')⟩ := by
    have hnumber : scanNumeral ['1', 'X', '2', 'é'] =
        some (⟨none, ['1'], none, none⟩, ['X', '2', 'é']) := rfl
    rw [scanWordsAt_zero, scanWords, scanWordsFrom_word (by decide) hnumber]
    change Scan.mk (_ :: (scanWordsFrom 2 ['X', '2', 'é']).words)
      (scanWordsFrom 2 ['X', '2', 'é']).failure = _
    rw [hsecond]
    rfl
  obtain ⟨-, -, -, htake, -⟩ := safe_and_restartable readsNumerals_readDouble line 0
  obtain ⟨⟨-, hfault⟩, -⟩ := safe_and_restartable readsNumerals_readDouble line 5
  refine ⟨readsNumerals_readDouble, ?_, hfault.2 ?_⟩
  · rw [htake, hscan]
    rfl
  · rintro text ⟨⟩

end Gcode
