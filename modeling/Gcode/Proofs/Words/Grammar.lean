import Gcode.Proofs.Words.Scan
import Mathlib.Data.List.Infix

/-!
# The grammar of a line

A number is `[+-]? (digit+ ('.' digit*)? | '.' digit+) ([eE] [+-]? digit+)?`.  A line of words is a
row of letters from `A` to `Z`, each with the longest number that starts right behind it.  Both are
written down here without a scanner.  `scanNumeral` reads exactly the longest number, and
`scanWords` covers as much of a line as the grammar can: what it leaves over starts with a character
that is no letter, or with a letter that no number follows, and that is the fault it reports.
-/

namespace Gcode

/-! ## Numbers -/

namespace Grammar

/-- `[+-]?` -/
inductive Sign : List Char → Prop
  | none : Sign []
  | plus : Sign ['+']
  | minus : Sign ['-']

/-- `digit+` -/
structure Digits (text : List Char) : Prop where
  digits : ∀ c ∈ text, c.isDigit = true
  nonempty : text ≠ []

/-- `digit+ ('.' digit*)? | '.' digit+` -/
inductive Mantissa : List Char → Prop
  | whole {digits : List Char} : Digits digits → Mantissa digits
  | point {digits fraction : List Char} : Digits digits → (∀ c ∈ fraction, c.isDigit = true) →
      Mantissa (digits ++ '.' :: fraction)
  | fraction {digits : List Char} : Digits digits → Mantissa ('.' :: digits)

/-- `([eE] [+-]? digit+)?` -/
inductive Exponent : List Char → Prop
  | none : Exponent []
  | marked {mark : Char} {sign digits : List Char} : mark = 'E' ∨ mark = 'e' → Sign sign →
      Digits digits → Exponent (mark :: (sign ++ digits))

inductive Number : List Char → Prop
  | parts {sign mantissa exponent : List Char} : Sign sign → Mantissa mantissa →
      Exponent exponent → Number (sign ++ (mantissa ++ exponent))

/-- The number stands at the start of the text, and no longer number does. -/
structure LongestNumber (number text : List Char) : Prop where
  isNumber : Number number
  starts : number <+: text
  longest : ∀ other, Number other → other <+: text → other.length ≤ number.length

def NoNumber (text : List Char) : Prop := ∀ number, Number number → ¬ number <+: text

/-! ## Numbers are the texts of well-formed numerals -/

theorem sign_iff {text : List Char} :
    Sign text ↔ ∃ sign : Option Char, sign.toList = text ∧
      ∀ c, sign = some c → Numeral.IsSign c := by
  constructor
  · rintro (_ | _ | _)
    · exact ⟨none, rfl, by simp⟩
    · exact ⟨some '+', rfl, by simp [Numeral.IsSign]⟩
    · exact ⟨some '-', rfl, by simp [Numeral.IsSign]⟩
  · rintro ⟨sign, rfl, hsign⟩
    cases sign with
    | none => exact .none
    | some c =>
        rcases hsign c rfl with rfl | rfl
        · exact .plus
        · exact .minus

theorem mantissa_iff {text : List Char} :
    Mantissa text ↔ ∃ whole fraction, whole ++ Numeral.fractionText fraction = text ∧
      Numeral.AllDigits whole ∧ (∀ digits, fraction = some digits → Numeral.AllDigits digits) ∧
      whole ++ fraction.getD [] ≠ [] := by
  constructor
  · rintro (⟨hdigits, hne⟩ | ⟨⟨hdigits, hne⟩, hfraction⟩ | ⟨hdigits, hne⟩)
    · exact ⟨text, none, List.append_nil _, hdigits, by simp, by simpa using hne⟩
    · exact ⟨_, some _, rfl, hdigits, by rintro _ ⟨⟩; exact hfraction, by simp [hne]⟩
    · exact ⟨[], some _, rfl, by simp [Numeral.AllDigits], by rintro _ ⟨⟩; exact hdigits, by simpa⟩
  · rintro ⟨whole, fraction, rfl, hwhole, hfraction, hne⟩
    cases fraction with
    | none =>
        rw [Numeral.fractionText, List.append_nil]
        exact .whole ⟨hwhole, by simpa using hne⟩
    | some digits =>
        have hdigits := hfraction digits rfl
        cases whole with
        | nil => exact .fraction ⟨hdigits, by simpa using hne⟩
        | cons digit others => exact .point ⟨hwhole, List.cons_ne_nil _ _⟩ hdigits

theorem exponent_iff {text : List Char} :
    Exponent text ↔ ∃ exponent, Numeral.exponentText exponent = text ∧
      ∀ e, exponent = some e → NumeralExponent.WellFormed e := by
  constructor
  · rintro (_ | ⟨hmark, hsign, hdigits⟩)
    · exact ⟨none, rfl, by simp⟩
    · obtain ⟨sign, rfl, hsigns⟩ := sign_iff.1 hsign
      refine ⟨some ⟨_, sign, _⟩, rfl, ?_⟩
      rintro _ ⟨⟩
      exact ⟨hmark, hsigns, hdigits.digits, hdigits.nonempty⟩
  · rintro ⟨exponent, rfl, hwell⟩
    cases exponent with
    | none => exact .none
    | some e =>
        obtain ⟨hmark, hsign, hdigits, hne⟩ := hwell e rfl
        exact .marked hmark (sign_iff.2 ⟨e.sign, rfl, hsign⟩) ⟨hdigits, hne⟩

theorem number_iff {text : List Char} :
    Number text ↔ ∃ numeral : Numeral, numeral.WellFormed ∧ numeral.text = text := by
  constructor
  · rintro ⟨hsign, hmantissa, hexponent⟩
    obtain ⟨sign, rfl, hsigns⟩ := sign_iff.1 hsign
    obtain ⟨whole, fraction, rfl, hwhole, hfraction, hne⟩ := mantissa_iff.1 hmantissa
    obtain ⟨exponent, rfl, hwell⟩ := exponent_iff.1 hexponent
    exact ⟨⟨sign, whole, fraction, exponent⟩, ⟨hsigns, hwhole, hfraction, hne, hwell⟩,
      by simp [Numeral.text]⟩
  · rintro ⟨numeral, hwell, rfl⟩
    rw [Numeral.text, ← List.append_assoc numeral.whole]
    exact .parts (sign_iff.2 ⟨_, rfl, hwell.sign⟩)
      (mantissa_iff.2 ⟨_, _, rfl, hwell.whole, hwell.fraction, hwell.digits⟩)
      (exponent_iff.2 ⟨_, rfl, hwell.exponent⟩)

end Grammar

open Grammar

/-! ## The scanner reads the longest number -/

theorem Numeral.stopsBefore_nil (numeral : Numeral) : numeral.StopsBefore [] where
  digit := by simp [StartsDigit]
  point := by simp
  exponent _ := by simp [StartsExponent, NumeralExponent.text]

theorem scanNumeral_text_self {numeral : Numeral} (hwell : numeral.WellFormed) :
    scanNumeral numeral.text = some (numeral, []) := by
  have hscan := Numeral.scanNumeral_suffix hwell numeral.stopsBefore_nil
  rwa [List.append_nil] at hscan

theorem scanNumeral_longest {text rest : List Char} {numeral : Numeral}
    (h : scanNumeral text = some (numeral, rest)) : LongestNumber numeral.text text := by
  have htext := scanNumeral_text h
  refine ⟨number_iff.2 ⟨numeral, (scanNumeral_wellFormed h).1, rfl⟩, ⟨rest, htext.symm⟩, ?_⟩
  rintro other hnumber ⟨after, hother⟩
  obtain ⟨longer, hwell, rfl⟩ := number_iff.1 hnumber
  by_contra hlength
  -- a longer number starts with the one that was read, so the scanner would have read on
  obtain ⟨more, hmore⟩ : ∃ more, longer.text = numeral.text ++ more := by
    have hprefix : numeral.text <+: longer.text :=
      List.prefix_of_prefix_length_le ⟨rest, htext.symm⟩ ⟨after, hother⟩ (by omega)
    exact hprefix.imp fun more hmore => hmore.symm
  have hrest : rest = more ++ after := by
    rw [htext, hmore, List.append_assoc] at hother
    exact (List.append_cancel_left hother).symm
  rw [hrest] at h
  have hcut := scanNumeral_cut h
  rw [← hmore, scanNumeral_text_self hwell] at hcut
  obtain ⟨-, hnil⟩ := Prod.mk.inj (Option.some.inj hcut)
  rw [hmore, ← hnil, List.append_nil] at hlength
  exact hlength le_rfl

theorem scanNumeral_ne_none {numeral : Numeral} (hwell : numeral.WellFormed)
    (after : List Char) : scanNumeral (numeral.text ++ after) ≠ none := by
  simp only [scanNumeral, Numeral.scanSign_text_append hwell]
  split
  · next hempty =>
      cases hwhole : numeral.whole with
      | cons digit others =>
          have hdigit := hwell.whole digit (by simp [hwhole])
          simp [hwhole, hdigit] at hempty
      | nil =>
          obtain ⟨digits, hfraction, hne⟩ := hwell.exists_fraction hwhole
          obtain ⟨digit, others, rfl⟩ := List.exists_cons_of_ne_nil hne
          have hdigit := hwell.fraction _ hfraction digit List.mem_cons_self
          have hpoint : Char.isDigit '.' = false := rfl
          simp [hwhole, hfraction, Numeral.fractionText, scanFraction, hdigit, hpoint] at hempty
  · simp

theorem scanNumeral_eq_none_iff {text : List Char} : scanNumeral text = none ↔ NoNumber text := by
  constructor
  · rintro hnone number hnumber ⟨after, rfl⟩
    obtain ⟨numeral, hwell, rfl⟩ := number_iff.1 hnumber
    exact scanNumeral_ne_none hwell after hnone
  · intro hno
    cases hscan : scanNumeral text with
    | none => rfl
    | some read =>
        obtain ⟨numeral, rest⟩ := read
        have hlongest := scanNumeral_longest hscan
        exact absurd hlongest.starts (hno _ hlongest.isNumber)

theorem scanNumeral_of_longest {numeral : Numeral} {after : List Char}
    (hwell : numeral.WellFormed) (hlongest : LongestNumber numeral.text (numeral.text ++ after)) :
    scanNumeral (numeral.text ++ after) = some (numeral, after) := by
  obtain ⟨⟨read, rest⟩, hscan⟩ := Option.ne_none_iff_exists'.1 (scanNumeral_ne_none hwell after)
  have hread := scanNumeral_longest hscan
  have htext : read.text = numeral.text :=
    (List.prefix_of_prefix_length_le hread.starts hlongest.starts
      (hlongest.longest _ hread.isNumber hread.starts)).eq_of_length_le
      (hread.longest _ hlongest.isNumber hlongest.starts)
  have hsame : read = numeral := by
    have hself := scanNumeral_text_self (scanNumeral_wellFormed hscan).1
    rw [htext, scanNumeral_text_self hwell] at hself
    exact (Prod.mk.inj (Option.some.inj hself)).1.symm
  have hrest := scanNumeral_text hscan
  rw [htext] at hrest
  rw [hscan, hsame, List.append_cancel_left hrest]

/-! ## Lines -/

/-- The words cover a text that stands at a column, from its start up to the rest.  Each is a letter
with the longest number right behind it, and starts where the one before it stops. -/
inductive Tiles : Nat → List Char → List PlacedWord → List Char → Prop
  | done {column : Nat} {rest : List Char} : Tiles column rest [] rest
  | word {column : Nat} {letter : Char} {numeral : Numeral} {after rest : List Char}
      {words : List PlacedWord} : isCommandLetter letter = true → numeral.WellFormed →
      LongestNumber numeral.text (numeral.text ++ after) →
      Tiles (column + byteLength (letter :: numeral.text)) after words rest →
      Tiles column (letter :: (numeral.text ++ after))
        (⟨⟨letter, numeral.value⟩, column, column + byteLength (letter :: numeral.text)⟩ :: words)
        rest

/-- How a scan ends at a column where the rest of its line begins. -/
inductive ScanEnd (column : Nat) : List Char → Option LineError → Prop
  | finished : ScanEnd column [] none
  | noLetter {c : Char} {after : List Char} : ¬ isCommandLetter c = true →
      ScanEnd column (c :: after) (some (.expectedCommandLetter column c))
  | noNumber {letter : Char} {after : List Char} : isCommandLetter letter = true →
      NoNumber after → ScanEnd column (letter :: after) (some (.badNumberFormat (column + 1)))

theorem ScanEnd.failure_eq_none_iff {column : Nat} {rest : List Char} {failure : Option LineError}
    (h : ScanEnd column rest failure) : failure = none ↔ rest = [] := by
  cases h <;> simp

theorem Grammar.LongestNumber.of_append {number after cut : List Char}
    (h : LongestNumber number (number ++ (after ++ cut))) :
    LongestNumber number (number ++ after) where
  isNumber := h.isNumber
  starts := List.prefix_append _ _
  longest other hnumber hstarts := by
    refine h.longest other hnumber (hstarts.trans ?_)
    rw [← List.append_assoc]
    exact List.prefix_append _ _

theorem column_add_byteLength_word {column : Nat} {letter : Char} {numeral : Numeral}
    (hletter : isCommandLetter letter = true) (hwell : numeral.WellFormed) :
    column + byteLength (letter :: numeral.text) = column + 1 + numeral.text.length := by
  rw [byteLength_cons, byteLength_numeral hwell, utf8Size_of_isCommandLetter hletter,
    Nat.add_assoc]

namespace Tiles

variable {column : Nat} {text rest : List Char} {words : List PlacedWord}

theorem exists_covered (h : Tiles column text words rest) :
    ∃ covered, text = covered ++ rest ∧ Tiles column covered words [] := by
  induction h with
  | done => exact ⟨[], rfl, .done⟩
  | word hletter hwell hlongest _ ih =>
      obtain ⟨covered, rfl, htiles⟩ := ih
      exact ⟨_ :: (_ ++ covered), by simp, .word hletter hwell hlongest.of_append htiles⟩

theorem scanWordsFrom_eq (h : Tiles column text words []) :
    scanWordsFrom column text = ⟨words, none⟩ := by
  generalize hrest : ([] : List Char) = rest at h
  induction h with
  | done => rw [← hrest, scanWordsFrom_nil]
  | @word column letter numeral after _ words hletter hwell hlongest _ ih =>
      have hothers := ih hrest
      rw [column_add_byteLength_word hletter hwell] at hothers ⊢
      rw [scanWordsFrom_word hletter (scanNumeral_of_longest hwell hlongest), hothers]

end Tiles

theorem Scan.cursor_cons (placed : PlacedWord) (words : List PlacedWord)
    (failure : Option LineError) (column : Nat) :
    (Scan.mk (placed :: words) failure).cursor column =
      (Scan.mk words failure).cursor placed.stop := by
  simp only [Scan.cursor, List.getLast?_cons, Option.map_some, Option.getD_some]
  cases words.getLast? <;> rfl

theorem Tiles.cursor_eq {column : Nat} {text : List Char} {words : List PlacedWord}
    (h : Tiles column text words []) (failure : Option LineError) :
    (Scan.mk words failure).cursor column = column + byteLength text := by
  generalize hrest : ([] : List Char) = rest at h
  induction h with
  | done => simp [← hrest, Scan.cursor]
  | word _ _ _ _ ih =>
      rw [Scan.cursor_cons, ih hrest, ← List.cons_append, byteLength_append, Nat.add_assoc]

theorem scanWordsFrom_tiles (column : Nat) (text : List Char) :
    ∃ rest, Tiles column text (scanWordsFrom column text).words rest ∧
      ScanEnd ((scanWordsFrom column text).cursor column) rest
        (scanWordsFrom column text).failure := by
  cases text with
  | nil =>
      rw [scanWordsFrom_nil]
      exact ⟨[], .done, .finished⟩
  | cons letter text =>
      by_cases hletter : isCommandLetter letter = true
      · cases hnumber : scanNumeral text with
        | none =>
            rw [scanWordsFrom_noNumber hletter hnumber]
            exact ⟨_, .done, .noNumber hletter (scanNumeral_eq_none_iff.1 hnumber)⟩
        | some read =>
            obtain ⟨numeral, after⟩ := read
            have hshorter := scanNumeral_length hnumber
            obtain ⟨rest, htiles, hend⟩ :=
              scanWordsFrom_tiles (column + 1 + numeral.text.length) after
            have hwell := (scanNumeral_wellFormed hnumber).1
            have hlongest := scanNumeral_longest hnumber
            have htext := scanNumeral_text hnumber
            rw [scanWordsFrom_word hletter hnumber, Scan.cursor_cons]
            refine ⟨rest, ?_, hend⟩
            rw [← column_add_byteLength_word hletter hwell] at htiles ⊢
            rw [htext] at hlongest ⊢
            exact .word hletter hwell hlongest htiles
      · rw [scanWordsFrom_noLetter hletter]
        exact ⟨_, .done, .noLetter hletter⟩
termination_by text.length

/-- A line is read without an error exactly if it is a row of words.  Otherwise the words cover a
part of it, the error names what stands there, and that part on its own is read without one. -/
theorem scanWords_grammar (line : List Char) :
    ((scanWords line).failure = none ↔ ∃ words, Tiles 0 line words []) ∧
      ∃ covered rest, line = covered ++ rest ∧
        byteLength covered = (scanWords line).cursor 0 ∧
        Tiles 0 line (scanWords line).words rest ∧
        scanWords covered = ⟨(scanWords line).words, none⟩ ∧
        ((scanWords line).failure = none ↔ rest = []) ∧
        ScanEnd (byteLength covered) rest (scanWords line).failure := by
  obtain ⟨rest, htiles, hend⟩ := scanWordsFrom_tiles 0 line
  obtain ⟨covered, hline, hcovered⟩ := htiles.exists_covered
  have hcursor : (scanWords line).cursor 0 = byteLength covered := by
    rw [← Nat.zero_add (byteLength covered), ← hcovered.cursor_eq (scanWords line).failure]
    rfl
  have hnone := hend.failure_eq_none_iff
  refine ⟨⟨fun hfailure => ?_, ?_⟩, covered, rest, hline, hcursor.symm, htiles,
    hcovered.scanWordsFrom_eq, hnone, hcursor ▸ hend⟩
  · rw [hnone.1 hfailure] at htiles
    exact ⟨_, htiles⟩
  · rintro ⟨words, hwords⟩
    rw [scanWords, hwords.scanWordsFrom_eq]

example : (scanWords "X2EY".toList).failure = some (.badNumberFormat 3) := by decide +kernel

end Gcode
