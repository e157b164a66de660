import Gcode.Proofs.Words.Numeral
import Gcode.Word

/-!
# Scans word by word

What `scanWordsFrom` does with the first word of a text, one equation for each way the text can
start, and the bytes that a word takes.
-/

namespace Gcode

/-! ## The first word of a text -/

section

variable {column : Nat} {letter : Char} {rest after : List Char} {numeral : Numeral}

@[simp] theorem scanWordsFrom_nil (column : Nat) : scanWordsFrom column [] = ⟨[], none⟩ := by
  rw [scanWordsFrom]
  simp [scanWord]

theorem scanWordsFrom_noLetter (hletter : ¬ isCommandLetter letter = true) :
    scanWordsFrom column (letter :: rest) =
      ⟨[], some (.expectedCommandLetter column letter)⟩ := by
  rw [scanWordsFrom]
  split <;> simp_all [scanWord]

theorem scanWordsFrom_noNumber (hletter : isCommandLetter letter = true)
    (hnumber : scanNumeral rest = none) :
    scanWordsFrom column (letter :: rest) = ⟨[], some (.badNumberFormat (column + 1))⟩ := by
  rw [scanWordsFrom]
  split <;> simp_all [scanWord]

theorem scanWordsFrom_word (hletter : isCommandLetter letter = true)
    (hnumber : scanNumeral rest = some (numeral, after)) :
    scanWordsFrom column (letter :: rest) =
      ⟨⟨⟨letter, numeral.value⟩, column, column + 1 + numeral.text.length⟩ ::
          (scanWordsFrom (column + 1 + numeral.text.length) after).words,
        (scanWordsFrom (column + 1 + numeral.text.length) after).failure⟩ := by
  have hscan : scanWord column (letter :: rest) =
      .ok (some (⟨⟨letter, numeral.value⟩, column, column + 1 + numeral.text.length⟩, after)) := by
    simp [scanWord, hletter, hnumber]
  rw [scanWordsFrom]
  split <;> simp_all

end

/-! ## Bytes -/

theorem utf8Size_of_toNat_lt {c : Char} (h : c.toNat < 128) : c.utf8Size = 1 := by
  rw [Char.utf8Size_eq_one_iff, UInt32.le_iff_toNat_le]
  exact Nat.le_of_lt_succ h

theorem toNat_of_isCommandLetter {letter : Char} (h : isCommandLetter letter = true) :
    0x41 ≤ letter.toNat ∧ letter.toNat ≤ 0x5A := by
  simpa [isCommandLetter, Char.le_def, UInt32.le_iff_toNat_le] using h

theorem toNat_of_isDigit {digit : Char} (h : digit.isDigit = true) :
    0x30 ≤ digit.toNat ∧ digit.toNat ≤ 0x39 := by
  simpa [Char.isDigit, UInt32.le_iff_toNat_le] using h

theorem utf8Size_of_isCommandLetter {letter : Char} (h : isCommandLetter letter = true) :
    letter.utf8Size = 1 := by
  obtain ⟨-, hupper⟩ := toNat_of_isCommandLetter h
  exact utf8Size_of_toNat_lt (by omega)

theorem utf8Size_of_isDigit {digit : Char} (h : digit.isDigit = true) : digit.utf8Size = 1 := by
  obtain ⟨-, hnine⟩ := toNat_of_isDigit h
  exact utf8Size_of_toNat_lt (by omega)

theorem byteLength_eq_length {text : List Char} (h : ∀ c ∈ text, c.utf8Size = 1) :
    byteLength text = text.length := by
  induction text with
  | nil => rfl
  | cons c text ih =>
      rw [byteLength_cons, h c List.mem_cons_self,
        ih fun d hd => h d (List.mem_cons_of_mem _ hd), List.length_cons, Nat.add_comm]

theorem byteLength_digits {digits : List Char} (h : Numeral.AllDigits digits) :
    byteLength digits = digits.length :=
  byteLength_eq_length fun digit hdigit => utf8Size_of_isDigit (h digit hdigit)

theorem byteLength_sign {sign : Option Char} (h : ∀ s, sign = some s → Numeral.IsSign s) :
    byteLength sign.toList = sign.toList.length := by
  cases sign with
  | none => rfl
  | some s => rcases h s rfl with rfl | rfl <;> rfl

theorem byteLength_exponent {exponent : NumeralExponent} (h : exponent.WellFormed) :
    byteLength exponent.text = exponent.text.length := by
  obtain ⟨hmark, hsign, hdigits, -⟩ := h
  have hsize : exponent.mark.utf8Size = 1 := by
    rcases hmark with hmark | hmark <;> rw [hmark] <;> rfl
  simp only [NumeralExponent.text, byteLength_cons, byteLength_append, List.length_cons,
    List.length_append, byteLength_sign hsign, byteLength_digits hdigits, hsize]
  omega

theorem byteLength_numeral {numeral : Numeral} (h : numeral.WellFormed) :
    byteLength numeral.text = numeral.text.length := by
  have hfraction : byteLength (Numeral.fractionText numeral.fraction) =
      (Numeral.fractionText numeral.fraction).length := by
    cases hdigits : numeral.fraction with
    | none => rfl
    | some digits =>
        rw [Numeral.fractionText, byteLength_cons, byteLength_digits (h.fraction digits hdigits),
          List.length_cons, Nat.add_comm]
        rfl
  have hexponent : byteLength (Numeral.exponentText numeral.exponent) =
      (Numeral.exponentText numeral.exponent).length := by
    cases hsome : numeral.exponent with
    | none => rfl
    | some exponent => exact byteLength_exponent (h.exponent exponent hsome)
  simp only [Numeral.text, byteLength_append, List.length_append, byteLength_sign h.sign,
    byteLength_digits h.whole, hfraction, hexponent]

end Gcode
