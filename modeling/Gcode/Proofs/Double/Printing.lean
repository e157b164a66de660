import Gcode.Proofs.Document.Number
import Gcode.Proofs.Double.Shortest
import Gcode.Proofs.Words.Grammar

/-!
# Printed doubles

Every layout writes the number of the digits it is given.  With the shortest digits, and with a sign
for a negative zero, the text of a finite double is the text of no other.
-/

namespace Gcode

open Double

/-! ## The number of a numeral -/

theorem digitsValue_append_zeros (digits : List Char) (count : Nat) :
    digitsValue (digits ++ List.replicate count '0') = digitsValue digits * 10 ^ count := by
  have happend := @Nat.ofDigitChars_append 10 digits (List.replicate count '0') 0
  rw [Nat.ofDigitChars_replicate_zero, Nat.mul_comm] at happend
  exact happend

theorem digitsValue_zeros_append (count : Nat) (digits : List Char) :
    digitsValue (List.replicate count '0' ++ digits) = digitsValue digits := by
  have happend := @Nat.ofDigitChars_append 10 (List.replicate count '0') digits 0
  rw [Nat.ofDigitChars_replicate_zero, Nat.mul_zero] at happend
  exact happend

theorem Decimal.number_of_zeros {decimal : Decimal} (zeros : Nat) {coefficient : Nat} {scale : ℤ}
    (hcoefficient : coefficient = decimal.coefficient * 10 ^ zeros)
    (hscale : scale + zeros = decimal.exponent) :
    number ⟨coefficient, scale⟩ = decimal.number := by
  rw [number, number, hcoefficient, ← hscale, zpow_add₀ (by norm_num)]
  push_cast
  rw [zpow_natCast]
  ring

namespace Layout

theorem number_positionalNumeral {wholeFraction : Option (List Char)}
    (hfraction : ∀ digits, wholeFraction = some digits → ∃ count, digits = List.replicate count '0')
    (negative : Bool) (decimal : Decimal) :
    let numeral := positionalNumeral wholeFraction negative decimal
    Decimal.number ⟨digitsValue numeral.digits, numeral.scale⟩ = decimal.number := by
  have hdigits : digitsValue decimal.digits = decimal.coefficient := digitsValue_toDigits _
  intro numeral
  obtain ⟨count, hwhole⟩ : ∃ count, wholeFraction.getD [] = List.replicate count '0' := by
    cases hcase : wholeFraction with
    | none => exact ⟨0, rfl⟩
    | some digits => exact hfraction digits hcase
  simp only [numeral, positionalNumeral]
  split
  · next hexponent =>
      refine Decimal.number_of_zeros (decimal.exponent.toNat + count) ?_ ?_
      · simp only [Numeral.digits, hwhole]
        rw [digitsValue_append_zeros, digitsValue_append_zeros, hdigits, Nat.mul_assoc, Nat.pow_add]
      · simp only [Numeral.scale, hwhole, Option.elim_none, List.length_replicate]
        omega
  · split
    · next hshort =>
        refine Decimal.number_of_zeros 0 ?_ ?_
        · have hzeros := digitsValue_zeros_append (1 + ((-decimal.exponent).toNat -
            decimal.digits.length)) decimal.digits
          simp only [Numeral.digits, Option.getD_some]
          rw [List.replicate_add, List.append_assoc] at hzeros
          rw [pow_zero, Nat.mul_one, ← hdigits]
          exact hzeros
        · simp only [Numeral.scale, Option.elim_none, Option.getD_some, List.length_append,
            List.length_replicate]
          omega
    · next hlong =>
        refine Decimal.number_of_zeros 0 ?_ ?_
        · simp only [Numeral.digits, Option.getD_some, List.take_append_drop, hdigits]
          rw [pow_zero, Nat.mul_one]
        · simp only [Numeral.scale, Option.elim_none, Option.getD_some, List.length_drop]
          omega

theorem number_scientificNumeral (plusExponent negative : Bool) (decimal : Decimal) :
    let numeral :=
      scientificNumeral plusExponent negative decimal.leadingExponent decimal.digits
    Decimal.number ⟨digitsValue numeral.digits, numeral.scale⟩ = decimal.number := by
  have hdigits : digitsValue decimal.digits = decimal.coefficient := digitsValue_toDigits _
  have hne : 0 < decimal.digits.length := Nat.length_toDigits_pos
  intro numeral
  have hfraction : numeral.fraction.getD [] = decimal.digits.drop 1 := by
    simp only [numeral, scientificNumeral]
    split
    · next hempty => rw [List.isEmpty_iff.1 hempty, Option.getD_none]
    · rw [Option.getD_some]
  refine Decimal.number_of_zeros 0 ?_ ?_
  · rw [Numeral.digits, hfraction, pow_zero, Nat.mul_one, ← hdigits]
    exact congrArg digitsValue (List.take_append_drop 1 _)
  · have hexponent : numeral.exponent.elim 0 NumeralExponent.value = decimal.leadingExponent := by
      simp only [numeral, scientificNumeral, Option.elim_some, NumeralExponent.value,
        digitsValue_toDigits]
      by_cases hlow : decimal.leadingExponent < 0
      · rw [if_pos hlow, if_pos rfl]
        omega
      · have hsign : (if plusExponent then some '+' else none) ≠ some '-' := by
          cases plusExponent <;> decide
        rw [if_neg hlow, if_neg hsign]
        omega
    rw [Numeral.scale, hfraction, hexponent, List.length_drop, Decimal.leadingExponent]
    omega

variable {layout : Layout}

@[simp] theorem negative_numeral (negative : Bool) (decimal : Decimal) :
    (layout.numeral negative decimal).negative = negative := by
  unfold numeral
  split
  · simp only [positionalNumeral]
    split
    · exact signOf_beq_minus negative
    · split <;> exact signOf_beq_minus negative
  · exact signOf_beq_minus negative

variable (hfraction : ∀ digits, layout.wholeFraction = some digits →
  ∃ count, digits = List.replicate count '0')

include hfraction

theorem number_numeral (negative : Bool) (decimal : Decimal) :
    (layout.numeral negative decimal).number =
      if negative then -decimal.number else decimal.number := by
  have hmagnitude : Decimal.number ⟨digitsValue (layout.numeral negative decimal).digits,
      (layout.numeral negative decimal).scale⟩ = decimal.number := by
    unfold numeral
    split
    · exact number_positionalNumeral hfraction negative decimal
    · exact number_scientificNumeral _ negative decimal
  rw [Numeral.number, negative_numeral, hmagnitude]

theorem numeral_inj {negative negative' : Bool} {decimal decimal' : Decimal}
    (hsame : (layout.numeral negative decimal).text = (layout.numeral negative' decimal').text) :
    negative = negative' ∧ decimal.number = decimal'.number := by
  have hwell := @numeral_wellFormed layout fun digits hdigits => by
    obtain ⟨count, rfl⟩ := hfraction digits hdigits
    exact allDigits_replicate_zero count
  have hscan := scanNumeral_text_self (hwell negative decimal)
  rw [hsame, scanNumeral_text_self (hwell negative' decimal')] at hscan
  obtain ⟨hnumeral, -⟩ := Prod.mk.inj (Option.some.inj hscan)
  have hnegative := congrArg Numeral.negative hnumeral
  have hnumber := congrArg Numeral.number hnumeral
  rw [negative_numeral, negative_numeral] at hnegative
  rw [number_numeral hfraction, number_numeral hfraction, hnegative] at hnumber
  refine ⟨hnegative.symm, ?_⟩
  cases negative with
  | false => exact hnumber.symm
  | true => exact (neg_injective hnumber).symm

theorem text_inj {x y : Float} (hx : x.isFinite = true) (hy : y.isFinite = true)
    (hsame : layout.text x = layout.text y) : x = y := by
  obtain ⟨negative, magnitude, hpartsX⟩ := isFinite_iff.1 hx
  obtain ⟨negative', magnitude', hpartsY⟩ := isFinite_iff.1 hy
  rw [text, text, hpartsX, hpartsY, String.ofList_inj] at hsame
  obtain ⟨rfl, hnumber⟩ := numeral_inj hfraction hsame
  obtain rfl := Decimal.shortest_number_injective (isDouble_of_floatParts hpartsX)
    (isDouble_of_floatParts hpartsY) hnumber
  exact eq_of_floatParts_eq hpartsX hpartsY

end Layout

end Gcode
