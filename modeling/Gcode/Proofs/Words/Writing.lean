import Gcode.Proofs.Document.Number
import Gcode.Proofs.Words.Grammar
import Gcode.Text.Normalize
import Mathlib.Data.List.Chain

/-!
# Words that are written and read back

Words are written one after another, with blanks between them that a line loses before it is read.
Nothing then separates a number from the word behind it but the letter of that word.  Only an `E`
with digits behind it can be mistaken: it becomes the exponent of a number that has none.  So the
scan reads each word where it was written exactly if no word swallows the next one
(`scanWords_written`).
-/

namespace Gcode

/-! ## Writing -/

structure Gap where
  text : List Char
  blank : ∀ c ∈ text, isBlank c = true

structure WrittenWord where
  gap : Gap
  letter : Char
  numeral : Numeral
  isLetter : isCommandLetter letter = true
  isNumber : numeral.WellFormed

def Numeral.capital (numeral : Numeral) : Numeral :=
  { numeral with exponent := numeral.exponent.map fun exponent => { exponent with mark := 'E' } }

namespace WrittenWord

def text (word : WrittenWord) : List Char := word.gap.text ++ word.letter :: word.numeral.text

def lineText (word : WrittenWord) : List Char := word.letter :: word.numeral.capital.text

def value (word : WrittenWord) : Word := ⟨word.letter, word.numeral.value⟩

/-- The next word becomes the exponent of this one: this one has none, and the next is an `E` with a
number that has digits before any point. -/
def Swallows (word next : WrittenWord) : Prop :=
  word.numeral.exponent = none ∧ next.letter = 'E' ∧ next.numeral.whole ≠ []

instance (word next : WrittenWord) : Decidable (word.Swallows next) :=
  inferInstanceAs (Decidable (_ ∧ _ ∧ _))

def swallowing (word next : WrittenWord) : Numeral :=
  { word.numeral with exponent := some ⟨'E', next.numeral.sign, next.numeral.whole⟩ }

/-- The number of the word has an exponent right behind its whole digits. -/
def HasBareExponent (word : WrittenWord) : Prop :=
  word.numeral.fraction = none ∧ word.numeral.exponent ≠ none

end WrittenWord

def writtenLine (words : List WrittenWord) (tail : Gap) : List Char :=
  words.flatMap WrittenWord.text ++ tail.text

def wordsText (words : List WrittenWord) : List Char := words.flatMap WrittenWord.lineText

def Separate (words : List WrittenWord) : Prop :=
  words.IsChain fun word next => ¬ word.Swallows next

def placedWords : Nat → List WrittenWord → List PlacedWord
  | _, [] => []
  | column, word :: words =>
    let stop := column + 1 + word.numeral.text.length
    ⟨word.value, column, stop⟩ :: placedWords stop words

/-! ## Normalising -/

namespace Numeral

@[simp] theorem value_capital (numeral : Numeral) : numeral.capital.value = numeral.value := by
  have hscale : numeral.capital.scale = numeral.scale := by
    unfold scale capital
    cases numeral.exponent <;> rfl
  rw [value, hscale]
  rfl

theorem length_text_capital (numeral : Numeral) :
    numeral.capital.text.length = numeral.text.length := by
  unfold text capital
  cases numeral.exponent <;> simp [exponentText, NumeralExponent.text]

theorem WellFormed.capital {numeral : Numeral} (hwell : numeral.WellFormed) :
    numeral.capital.WellFormed where
  sign := hwell.sign
  whole := hwell.whole
  fraction := hwell.fraction
  digits := hwell.digits
  exponent := by
    intro exponent hexponent
    obtain ⟨written, hwritten, rfl⟩ := Option.map_eq_some_iff.1 hexponent
    exact ⟨.inl rfl, (hwell.exponent written hwritten).2⟩

end Numeral

section

variable {c : Char}

theorem toUpper_of_toNat_lt (h : c.toNat < 'a'.toNat) : c.toUpper = c := by
  have hlower : ¬ (c.val ≥ 'a'.val ∧ c.val ≤ 'z'.val) := by
    simp only [ge_iff_le, UInt32.le_iff_toNat_le]
    exact fun hlower => absurd hlower.1 (Nat.not_le_of_lt h)
  exact dif_neg hlower

theorem not_isBlank_of_isNumeralChar (h : isNumeralChar c = true) : isBlank c = false := by
  rcases Bool.or_eq_true_iff.1 h with hdigit | hother
  · obtain ⟨hlow, hhigh⟩ := toNat_of_isDigit hdigit
    exact not_isBlank_of_toNat (by omega) (by omega)
  · have hall : ['.', 'E', 'e', '+', '-'].all (!isBlank ·) = true := by decide
    simpa using List.all_eq_true.1 hall c (List.contains_iff_mem.1 hother)

end

theorem map_toUpper_digits {digits : List Char} (h : Numeral.AllDigits digits) :
    digits.map Char.toUpper = digits := by
  refine (List.map_congr_left fun digit hdigit => ?_).trans (List.map_id digits)
  obtain ⟨-, hhigh⟩ := toNat_of_isDigit (h digit hdigit)
  exact toUpper_of_toNat_lt (Nat.lt_of_le_of_lt hhigh (by decide))

theorem map_toUpper_sign {sign : Option Char} (h : ∀ s, sign = some s → Numeral.IsSign s) :
    sign.toList.map Char.toUpper = sign.toList := by
  cases sign with
  | none => rfl
  | some s => rcases h s rfl with rfl | rfl <;> rfl

theorem Numeral.map_toUpper_text {numeral : Numeral} (hwell : numeral.WellFormed) :
    numeral.text.map Char.toUpper = numeral.capital.text := by
  have hfraction : (fractionText numeral.fraction).map Char.toUpper =
      fractionText numeral.fraction := by
    cases hdigits : numeral.fraction with
    | none => rfl
    | some digits => exact congrArg ('.' :: ·) (map_toUpper_digits (hwell.fraction digits hdigits))
  have hexponent : (exponentText numeral.exponent).map Char.toUpper =
      exponentText numeral.capital.exponent := by
    unfold capital
    cases hsome : numeral.exponent with
    | none => rfl
    | some exponent =>
        obtain ⟨hmark, hsign, hdigits, -⟩ := hwell.exponent exponent hsome
        have hcapital : exponent.mark.toUpper = 'E' := by
          rcases hmark with hmark | hmark <;> rw [hmark] <;> rfl
        simp only [exponentText, Option.map_some, NumeralExponent.text, List.map_cons,
          List.map_append, hcapital, map_toUpper_sign hsign, map_toUpper_digits hdigits]
  simp only [text, List.map_append, map_toUpper_sign hwell.sign, map_toUpper_digits hwell.whole,
    hfraction, hexponent]
  rfl

@[simp] theorem normalized_gap (gap : Gap) : normalized gap.text = [] := by
  have hblank : gap.text.filter (fun c => !isBlank c) = [] :=
    List.filter_eq_nil_iff.2 fun c hc => by simp [gap.blank c hc]
  rw [normalized, hblank, List.map_nil]

theorem WrittenWord.normalized_text (word : WrittenWord) :
    normalized word.text = word.lineText := by
  obtain ⟨hlow, hhigh⟩ := toNat_of_isCommandLetter word.isLetter
  have hvisible : ∀ c ∈ word.letter :: word.numeral.text, (!isBlank c) = true := by
    intro c hc
    rw [Bool.not_eq_true']
    rcases List.mem_cons.1 hc with rfl | hc
    · exact not_isBlank_of_toNat (by omega) (by omega)
    · exact not_isBlank_of_isNumeralChar (word.isNumber.isNumeralChar_of_mem hc)
  rw [text, normalized_append, normalized_gap, List.nil_append, normalized,
    List.filter_eq_self.2 hvisible, List.map_cons, Numeral.map_toUpper_text word.isNumber,
    toUpper_of_toNat_lt (Nat.lt_of_le_of_lt hhigh (by decide)), lineText]

theorem normalized_writtenLine (words : List WrittenWord) (tail : Gap) :
    normalized (writtenLine words tail) = wordsText words := by
  rw [writtenLine, normalized_append, normalized_gap, List.append_nil]
  induction words with
  | nil => rfl
  | cons word words ih =>
      rw [List.flatMap_cons, normalized_append, ih, word.normalized_text]
      rfl

/-! ## What the scan reads -/

section

variable {word next : WrittenWord} {words : List WrittenWord} {rest : List Char}

theorem startsExponent_lineText : StartsExponent (next.lineText ++ rest) ↔
    next.letter = 'E' ∧ next.numeral.whole ≠ [] := by
  have hwell := next.isNumber.capital
  constructor
  · rintro ⟨exponent, after, ⟨hmark, hsign, hdigits, hne⟩, htext⟩
    simp only [WrittenWord.lineText, NumeralExponent.text, List.cons_append,
      List.append_assoc] at htext
    obtain ⟨hletter, hnumber⟩ := List.cons.inj htext
    have hcapital : next.letter = 'E' := by
      refine hletter.trans (hmark.resolve_right fun hsmall => ?_)
      have hupper := next.isLetter
      rw [hletter, hsmall] at hupper
      contradiction
    refine ⟨hcapital, fun hwhole => ?_⟩
    obtain ⟨digits, hfraction, -⟩ := next.isNumber.exists_fraction hwhole
    obtain ⟨digit, others, hcons⟩ := List.exists_cons_of_ne_nil hne
    have hdigit : digit.isDigit = true := hdigits digit (hcons ▸ List.mem_cons_self)
    have hscan := congrArg scanSign hnumber
    rw [Numeral.scanSign_text_append hwell, hcons, scanSign_suffix hsign] at hscan
    · have hpoint : next.numeral.capital.whole ++
          (Numeral.fractionText next.numeral.capital.fraction ++
            (Numeral.exponentText next.numeral.capital.exponent ++ rest)) =
          digit :: (others ++ after) := (Prod.mk.inj hscan).2
      have hnone : next.numeral.capital.whole = [] := hwhole
      have hsome : next.numeral.capital.fraction = some digits := hfraction
      rw [hnone, hsome] at hpoint
      obtain ⟨rfl, -⟩ := List.cons.inj hpoint
      contradiction
    · rintro - c hc
      obtain rfl : digit = c := by simpa using hc
      exact not_isSign_of_isDigit hdigit
  · rintro ⟨hletter, hwhole⟩
    refine ⟨⟨'E', next.numeral.sign, next.numeral.whole⟩,
      Numeral.fractionText next.numeral.fraction ++
        (Numeral.exponentText next.numeral.capital.exponent ++ rest),
      ⟨.inl rfl, next.isNumber.sign, next.isNumber.whole, hwhole⟩, ?_⟩
    simp [WrittenWord.lineText, hletter, Numeral.text, NumeralExponent.text, Numeral.capital]

theorem not_isDigit_of_isCommandLetter {letter : Char} (h : isCommandLetter letter = true) :
    letter.isDigit = false := by
  obtain ⟨hlow, -⟩ := toNat_of_isCommandLetter h
  by_contra hdigit
  obtain ⟨-, hhigh⟩ := toNat_of_isDigit (by simpa using hdigit)
  omega

theorem not_startsDigit_wordsText (words : List WrittenWord) : ¬ StartsDigit (wordsText words) := by
  refine not_startsDigit_of_head fun c hc => ?_
  cases words with
  | nil => simp [wordsText] at hc
  | cons word words =>
      obtain rfl : word.letter = c := by simpa [wordsText, WrittenWord.lineText] using hc
      exact not_isDigit_of_isCommandLetter word.isLetter

theorem stopsBefore_wordsText (h : ∀ next ∈ words.head?, ¬ word.Swallows next) :
    word.numeral.capital.StopsBefore (wordsText words) where
  digit := not_startsDigit_wordsText words
  point _ _ hpoint := by
    cases words with
    | nil => simp [wordsText] at hpoint
    | cons next words =>
        have hletter : next.letter = '.' := by
          simpa [wordsText, WrittenWord.lineText] using hpoint
        have hcapital := next.isLetter
        rw [hletter] at hcapital
        contradiction
  exponent hexponent := by
    have hnone : word.numeral.exponent = none := Option.map_eq_none_iff.1 hexponent
    cases words with
    | nil => exact word.numeral.capital.stopsBefore_nil.exponent hexponent
    | cons next words =>
        intro hstarts
        rw [wordsText, List.flatMap_cons, startsExponent_lineText] at hstarts
        exact h next rfl ⟨hnone, hstarts⟩

end

/-! ## Scans -/

variable {words rest : List WrittenWord} {word next : WrittenWord}

theorem wordsText_cons (word : WrittenWord) (words : List WrittenWord) :
    wordsText (word :: words) = word.letter :: (word.numeral.capital.text ++ wordsText words) := rfl

theorem scanWordsFrom_wordsText (column : Nat) (h : ∀ next ∈ words.head?, ¬ word.Swallows next) :
    let stop := column + 1 + word.numeral.text.length
    let others := scanWordsFrom stop (wordsText words)
    scanWordsFrom column (wordsText (word :: words)) =
      ⟨⟨word.value, column, stop⟩ :: others.words, others.failure⟩ := by
  intro stop others
  have hnumber := Numeral.scanNumeral_suffix word.isNumber.capital (stopsBefore_wordsText h)
  rw [wordsText_cons, scanWordsFrom_word word.isLetter hnumber, Numeral.value_capital,
    Numeral.length_text_capital]
  rfl

theorem length_wordsText_cons (word : WrittenWord) (words : List WrittenWord) :
    (wordsText (word :: words)).length =
      1 + word.numeral.text.length + (wordsText words).length := by
  rw [wordsText_cons, List.length_cons, List.length_append, Numeral.length_text_capital]
  omega

@[simp] theorem length_placedWords (column : Nat) (words : List WrittenWord) :
    (placedWords column words).length = words.length := by
  induction words generalizing column with
  | nil => rfl
  | cons word words ih => exact congrArg (· + 1) (ih _)

theorem map_word_placedWords (column : Nat) (words : List WrittenWord) :
    (placedWords column words).map PlacedWord.word = words.map WrittenWord.value := by
  induction words generalizing column with
  | nil => rfl
  | cons word words ih => exact congrArg (word.value :: ·) (ih _)

theorem placedWords_append (column : Nat) (before rest : List WrittenWord) :
    placedWords column (before ++ rest) =
      placedWords column before ++ placedWords (column + (wordsText before).length) rest := by
  induction before generalizing column with
  | nil => rfl
  | cons first before ih =>
      simp only [List.cons_append, placedWords, ih, length_wordsText_cons, Nat.add_assoc]

theorem scanWordsFrom_append {before : List WrittenWord} (h : Separate (before ++ [word]))
    (column : Nat) (rest : List WrittenWord) :
    let others :=
      scanWordsFrom (column + (wordsText before).length) (wordsText (word :: rest))
    scanWordsFrom column (wordsText (before ++ word :: rest)) =
      ⟨placedWords column before ++ others.words, others.failure⟩ := by
  induction before generalizing column with
  | nil => rfl
  | cons first before ih =>
      obtain ⟨hfirst, hbefore⟩ := List.isChain_cons.1 h
      have hnext : ∀ next ∈ (before ++ word :: rest).head?, ¬ first.Swallows next := by
        intro next hnext
        refine hfirst next ?_
        cases before <;> exact hnext
      simp only [List.cons_append, scanWordsFrom_wordsText column hnext, ih hbefore,
        length_wordsText_cons, placedWords, Nat.add_assoc]

theorem scanWordsFrom_of_separate (h : Separate words) (column : Nat) :
    scanWordsFrom column (wordsText words) = ⟨placedWords column words, none⟩ := by
  induction words generalizing column with
  | nil => exact scanWordsFrom_nil column
  | cons word words ih =>
      obtain ⟨hword, hwords⟩ := List.isChain_cons.1 h
      rw [scanWordsFrom_wordsText column hword, ih hwords]
      rfl

/-! ## Swallowed words -/

theorem Numeral.WellFormed.swallowing (h : word.Swallows next) :
    (word.swallowing next).WellFormed where
  sign := word.isNumber.sign
  whole := word.isNumber.whole
  fraction := word.isNumber.fraction
  digits := word.isNumber.digits
  exponent := by
    rintro _ ⟨⟩
    exact ⟨.inl rfl, next.isNumber.sign, next.isNumber.whole, h.2.2⟩

/-- What is left of a word after its whole digits were swallowed. -/
def WrittenWord.leftover (word : WrittenWord) : List Char :=
  Numeral.fractionText word.numeral.fraction ++
    Numeral.exponentText word.numeral.capital.exponent

theorem wordsText_of_swallows (h : word.Swallows next) (words : List WrittenWord) :
    wordsText (word :: next :: words) =
      word.letter :: ((word.swallowing next).text ++ (next.leftover ++ wordsText words)) := by
  obtain ⟨hexponent, hletter, -⟩ := h
  simp [wordsText_cons, WrittenWord.swallowing, WrittenWord.leftover, Numeral.text,
    Numeral.capital, NumeralExponent.text, Numeral.exponentText, hexponent, hletter]

theorem not_startsDigit_leftover (word : WrittenWord) (words : List WrittenWord) :
    ¬ StartsDigit (word.leftover ++ wordsText words) := by
  unfold WrittenWord.leftover Numeral.capital
  cases word.numeral.fraction with
  | some digits => exact not_startsDigit_of_head (by simp [Numeral.fractionText])
  | none =>
      cases word.numeral.exponent with
      | some exponent =>
          exact not_startsDigit_of_head
            (by simp [Numeral.fractionText, Numeral.exponentText, NumeralExponent.text])
      | none => exact not_startsDigit_wordsText words

theorem scanWordsFrom_swallows (h : word.Swallows next) (column : Nat) :
    let numeral := word.swallowing next
    let stop := column + 1 + numeral.text.length
    let others := scanWordsFrom stop (next.leftover ++ wordsText words)
    scanWordsFrom column (wordsText (word :: next :: words)) =
      ⟨⟨⟨word.letter, numeral.value⟩, column, stop⟩ :: others.words, others.failure⟩ := by
  intro numeral stop others
  have hstops : numeral.StopsBefore (next.leftover ++ wordsText words) :=
    ⟨not_startsDigit_leftover next words, fun _ hnone => by contradiction,
      fun hnone => by contradiction⟩
  rw [wordsText_of_swallows h, scanWordsFrom_word word.isLetter
    (Numeral.scanNumeral_suffix (Numeral.WellFormed.swallowing h) hstops)]

/-- The exponent of a number as a word of its own. -/
def WrittenWord.ofExponent {exponent : NumeralExponent} (wellFormed : exponent.WellFormed) :
    WrittenWord where
  gap := ⟨[], by simp⟩
  letter := 'E'
  numeral := ⟨exponent.sign, exponent.digits, none, none⟩
  isLetter := rfl
  isNumber :=
    { sign := wellFormed.2.1
      whole := wellFormed.2.2.1
      fraction := by simp
      digits := by simpa [Numeral.digits] using wellFormed.2.2.2
      exponent := by simp }

theorem leftover_cases (word : WrittenWord) (words : List WrittenWord) :
    (∃ rest, word.leftover ++ wordsText words = '.' :: rest) ∨
      word.leftover = [] ∨
      word.HasBareExponent ∧ ∃ bare : WrittenWord,
        word.leftover ++ wordsText words = wordsText (bare :: words) := by
  unfold WrittenWord.leftover Numeral.capital
  cases hfraction : word.numeral.fraction with
  | some digits => exact .inl ⟨_, rfl⟩
  | none =>
      cases hexponent : word.numeral.exponent with
      | none => exact .inr (.inl rfl)
      | some exponent =>
          have hwell := word.isNumber.exponent exponent hexponent
          refine .inr (.inr ⟨⟨hfraction, by simp [hexponent]⟩, .ofExponent hwell, ?_⟩)
          simp [wordsText_cons, WrittenWord.ofExponent, Numeral.capital, Numeral.text,
            Numeral.fractionText, Numeral.exponentText, NumeralExponent.text]

theorem length_scanWordsFrom_le (column : Nat) (words : List WrittenWord) :
    (scanWordsFrom column (wordsText words)).words.length ≤ words.length := by
  match words with
  | [] => simp [wordsText]
  | [word] =>
      rw [scanWordsFrom_wordsText column (by simp)]
      simp [wordsText]
  | word :: next :: words =>
      by_cases hswallows : word.Swallows next
      · rw [scanWordsFrom_swallows hswallows]
        generalize column + 1 + (word.swallowing next).text.length = stop
        rcases leftover_cases next words with ⟨rest, hpoint⟩ | hnil | ⟨-, bare, hbare⟩
        · rw [hpoint, scanWordsFrom_noLetter (by decide)]
          simp
        · have hwords := length_scanWordsFrom_le stop words
          rw [hnil, List.nil_append, List.length_cons, List.length_cons, List.length_cons]
          omega
        · have hwords := length_scanWordsFrom_le stop (bare :: words)
          rw [hbare]
          simpa using hwords
      · have hwords := length_scanWordsFrom_le (column + 1 + word.numeral.text.length)
          (next :: words)
        rw [scanWordsFrom_wordsText column (by simpa using hswallows)]
        simpa using hwords
termination_by words.length

/-! ## The first swallowed word -/

structure FirstSwallow (words before : List WrittenWord) (word next : WrittenWord)
    (after : List WrittenWord) : Prop where
  split : words = before ++ word :: next :: after
  separate : Separate (before ++ [word])
  swallows : word.Swallows next

theorem exists_firstSwallow (h : ¬ Separate words) :
    ∃ before word next after, FirstSwallow words before word next after := by
  induction words with
  | nil => exact absurd .nil h
  | cons word words ih =>
      cases words with
      | nil => exact absurd (.singleton word) h
      | cons next words =>
          by_cases hswallows : word.Swallows next
          · exact ⟨[], word, next, words, rfl, .singleton word, hswallows⟩
          · have hrest : ¬ Separate (next :: words) := fun hrest =>
              h (List.isChain_cons.2 ⟨by simpa using hswallows, hrest⟩)
            obtain ⟨before, first, second, after, hsplit, hseparate, hfirst⟩ := ih hrest
            refine ⟨word :: before, first, second, after, by rw [hsplit]; rfl,
              List.isChain_cons.2 ⟨fun other hother => ?_, hseparate⟩, hfirst⟩
            have hnext : (next :: words).head? = some other := by
              rw [hsplit]
              cases before <;> exact hother
            obtain rfl := Option.some.inj hnext
            exact hswallows

namespace FirstSwallow

variable {before after : List WrittenWord}

theorem not_separate (first : FirstSwallow words before word next after) : ¬ Separate words := by
  obtain ⟨rfl, -, hswallows⟩ := first
  intro hseparate
  obtain ⟨-, hrest, -⟩ := List.isChain_append.1 hseparate
  exact (List.isChain_cons_cons.1 hrest).1 hswallows

theorem scanWordsFrom_words (first : FirstSwallow words before word next after) (column : Nat) :
    let numeral := word.swallowing next
    let start := column + (wordsText before).length
    let others := scanWordsFrom (start + 1 + numeral.text.length) (next.leftover ++ wordsText after)
    scanWordsFrom column (wordsText words) =
      ⟨placedWords column before ++
        ⟨⟨word.letter, numeral.value⟩, start, start + 1 + numeral.text.length⟩ :: others.words,
        others.failure⟩ := by
  intro numeral start others
  rw [first.split, scanWordsFrom_append first.separate, scanWordsFrom_swallows first.swallows]

theorem missing (first : FirstSwallow words before word next after) (column : Nat) :
    let scan := scanWordsFrom column (wordsText words)
    next.HasBareExponent ∨ scan.failure ≠ none ∨ scan.words.length < words.length := by
  intro scan
  have hscan : scan = _ := first.scanWordsFrom_words column
  rcases leftover_cases next after with ⟨rest, hpoint⟩ | hnil | ⟨hbare, -⟩
  · refine .inr (.inl ?_)
    rw [hscan, hpoint, scanWordsFrom_noLetter (by decide)]
    simp
  · refine .inr (.inr ?_)
    have hafter := length_scanWordsFrom_le
      (column + (wordsText before).length + 1 + (word.swallowing next).text.length) after
    rw [hscan, hnil, List.nil_append, first.split]
    simp only [List.length_append, List.length_cons, length_placedWords]
    omega
  · exact .inl hbare

theorem misplaced (first : FirstSwallow words before word next after) (column : Nat) :
    (scanWordsFrom column (wordsText words)).words ≠ placedWords column words := by
  intro hsame
  rw [first.scanWordsFrom_words, first.split, placedWords_append] at hsame
  have hword := (List.cons.inj (List.append_cancel_left hsame)).1
  have hstop := congrArg PlacedWord.stop hword
  have hlonger : word.numeral.text.length < (word.swallowing next).text.length := by
    simp [Numeral.text, WrittenWord.swallowing, first.swallows.1, Numeral.exponentText,
      NumeralExponent.text]
  simp only at hstop
  omega

end FirstSwallow

/-! ## Reading words back -/

/-- The scan reads every word where it was written exactly if the words are separate, and so reads
their letters and values.  Otherwise the first word that swallows the next one takes its digits, and
the scan fails or has fewer words than were written, unless an exponent stood right behind those
digits: it is then read as a word. -/
theorem scanWords_written (words : List WrittenWord) (tail : Gap) :
    let scan := scanWords (normalized (writtenLine words tail))
    let same := scan.failure = none ∧
      scan.words.map PlacedWord.word = words.map WrittenWord.value
    (scan = ⟨placedWords 0 words, none⟩ ↔ Separate words) ∧
      (Separate words → same) ∧
      (¬ Separate words ↔
        ∃ before word next after, FirstSwallow words before word next after) ∧
      (∀ before word next after, FirstSwallow words before word next after →
        let numeral := word.swallowing next
        let start := (wordsText before).length
        (∃ others, scan.words = placedWords 0 before ++
          ⟨⟨word.letter, numeral.value⟩, start, start + 1 + numeral.text.length⟩ :: others) ∧
        (next.HasBareExponent ∨ scan.failure ≠ none ∨ scan.words.length < words.length)) ∧
      ((∀ before word next after, FirstSwallow words before word next after →
        ¬ next.HasBareExponent) → (same ↔ Separate words)) := by
  intro scan same
  have hscan : scan = scanWordsFrom 0 (wordsText words) := by
    rw [← normalized_writtenLine words tail]
    rfl
  have hsame (hseparate : Separate words) : same := by
    simp only [same, hscan, scanWordsFrom_of_separate hseparate, map_word_placedWords, and_self]
  have hmissing {before word next after} (first : FirstSwallow words before word next after) :
      next.HasBareExponent ∨ scan.failure ≠ none ∨ scan.words.length < words.length :=
    hscan ▸ first.missing 0
  refine ⟨⟨fun hplaced => ?_, fun hseparate => ?_⟩, hsame, ⟨exists_firstSwallow, ?_⟩, ?_,
    fun hbare => ⟨fun h => ?_, hsame⟩⟩
  · by_contra hnot
    obtain ⟨before, word, next, after, first⟩ := exists_firstSwallow hnot
    exact first.misplaced 0 (by rw [← hscan, hplaced])
  · rw [hscan, scanWordsFrom_of_separate hseparate]
  · rintro ⟨before, word, next, after, first⟩
    exact first.not_separate
  · intro before word next after first
    have hwords := congrArg Scan.words (hscan.trans (first.scanWordsFrom_words 0))
    rw [Nat.zero_add] at hwords
    exact ⟨⟨_, hwords⟩, hmissing first⟩
  · by_contra hnot
    obtain ⟨hnone, hwords⟩ := h
    obtain ⟨before, word, next, after, first⟩ := exists_firstSwallow hnot
    have hlength := congrArg List.length hwords
    rw [List.length_map, List.length_map] at hlength
    rcases hmissing first with hexponent | hfailure | hfewer
    · exact hbare _ _ _ _ first hexponent
    · exact hfailure hnone
    · omega

theorem scanWords_written_order :
    let noGap : Gap := ⟨[], by simp⟩
    let one : WrittenWord :=
      { gap := noGap
        letter := 'X'
        numeral := ⟨none, ['1'], none, none⟩
        isLetter := rfl
        isNumber := (scanNumeral_wellFormed (rfl : scanNumeral ['1'] = some (_, []))).1 }
    let five : WrittenWord :=
      { gap := ⟨[' '], by simp [isBlank, isWhiteSpace]⟩
        letter := 'E'
        numeral := ⟨none, ['5'], none, none⟩
        isLetter := rfl
        isNumber := (scanNumeral_wellFormed (rfl : scanNumeral ['5'] = some (_, []))).1 }
    let lost := scanWords (normalized (writtenLine [one, five] noGap))
    let kept := scanWords (normalized (writtenLine [five, one] noGap))
    (FirstSwallow [one, five] [] one five [] ∧ ¬ five.HasBareExponent ∧
        (lost.failure ≠ none ∨ lost.words.length < 2)) ∧
      Separate [five, one] ∧ kept.failure = none ∧
        kept.words.map PlacedWord.word = [five.value, one.value] := by
  intro noGap one five lost kept
  have hfirst : FirstSwallow [one, five] [] one five [] :=
    ⟨rfl, .singleton one, rfl, rfl, by simp [five]⟩
  have hbare : ¬ five.HasBareExponent := fun h => h.2 rfl
  have hseparate : Separate [five, one] :=
    List.isChain_pair.2 fun h => absurd h.2.1 (by decide)
  obtain ⟨-, -, -, hlost, -⟩ := scanWords_written [one, five] noGap
  obtain ⟨-, hkept, -⟩ := scanWords_written [five, one] noGap
  obtain ⟨-, hmissing⟩ := hlost _ _ _ _ hfirst
  exact ⟨⟨hfirst, hbare, hmissing.resolve_left hbare⟩, hseparate, hkept hseparate⟩

/-- In `X0E0E0` the first word swallows the digits of the second, whose exponent stands in for it:
the scan has as many words as were written, and even their letters and values. -/
theorem scanWords_written_standIn :
    let noGap : Gap := ⟨[], by simp⟩
    let zero : WrittenWord :=
      { gap := noGap
        letter := 'X'
        numeral := ⟨none, ['0'], none, none⟩
        isLetter := rfl
        isNumber := (scanNumeral_wellFormed (rfl : scanNumeral ['0'] = some (_, []))).1 }
    let scaledZero : WrittenWord :=
      { gap := noGap
        letter := 'E'
        numeral := ⟨none, ['0'], none, some ⟨'E', none, ['0']⟩⟩
        isLetter := rfl
        isNumber :=
          (scanNumeral_wellFormed (rfl : scanNumeral ['0', 'E', '0'] = some (_, []))).1 }
    let scan := scanWords (normalized (writtenLine [zero, scaledZero] noGap))
    zero.Swallows scaledZero ∧ ¬ Separate [zero, scaledZero] ∧ scan.failure = none ∧
      scan.words.map PlacedWord.word = [zero, scaledZero].map WrittenWord.value := by
  intro noGap zero scaledZero scan
  have hswallows : zero.Swallows scaledZero := ⟨rfl, rfl, by simp [scaledZero]⟩
  have hscan : scan = ⟨[⟨zero.value, 0, 4⟩, ⟨scaledZero.value, 4, 6⟩], none⟩ := by
    have hstandIn : scanWordsFrom 4 ('E' :: zero.numeral.text) =
        ⟨[⟨scaledZero.value, 4, 6⟩], none⟩ := by
      rw [scanWordsFrom_word rfl (scanNumeral_text_self zero.isNumber), scanWordsFrom_nil]
      rfl
    have hfirst : scanWordsFrom 0 (wordsText [zero, scaledZero]) = _ :=
      scanWordsFrom_swallows hswallows 0
    rw [← normalized_writtenLine _ noGap] at hfirst
    refine hfirst.trans ?_
    change Scan.mk (_ :: (scanWordsFrom 4 ('E' :: zero.numeral.text)).words)
      (scanWordsFrom 4 ('E' :: zero.numeral.text)).failure = _
    rw [hstandIn]
    rfl
  rw [hscan]
  exact ⟨hswallows, fun h => (List.isChain_cons_cons.1 h).1 hswallows, rfl, rfl⟩

end Gcode
