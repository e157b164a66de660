import Gcode.Decimal.Layout
import Gcode.Proofs.Words.Numeral

/-!
# Numbers as they are written

Whatever the layout, a finite double is written as a well-formed numeral, so `scanNumeral` reads it
back to where it ends.
-/

namespace Gcode

/-! ## Digits -/

theorem allDigits_toDigits (n : Nat) : Numeral.AllDigits (Nat.toDigits 10 n) :=
  fun _ hdigit => Nat.isDigit_of_mem_toDigits (by decide) (by decide) hdigit

theorem allDigits_replicate_zero (count : Nat) :
    Numeral.AllDigits (List.replicate count '0') := by
  intro digit hdigit
  rw [List.eq_of_mem_replicate hdigit]
  rfl

namespace Numeral.AllDigits

variable {first second : List Char}

theorem append (hfirst : AllDigits first) (hsecond : AllDigits second) :
    AllDigits (first ++ second) := by
  intro digit hdigit
  exact (List.mem_append.1 hdigit).elim (hfirst digit) (hsecond digit)

theorem take (count : Nat) (hfirst : AllDigits first) : AllDigits (first.take count) :=
  fun digit hdigit => hfirst digit (List.mem_of_mem_take hdigit)

theorem drop (count : Nat) (hfirst : AllDigits first) : AllDigits (first.drop count) :=
  fun digit hdigit => hfirst digit (List.mem_of_mem_drop hdigit)

end Numeral.AllDigits

theorem digitsValue_toDigits (n : Nat) : digitsValue (Nat.toDigits 10 n) = n :=
  Nat.ofDigitChars_ten_toDigits

theorem head?_toDigits {n : Nat} (hn : n ≠ 0) : (Nat.toDigits 10 n).head? ≠ some '0' := by
  induction n using Nat.strongRecOn with
  | ind n ih =>
      by_cases hsmall : n < 10
      · have hall : ∀ d < 10, d ≠ 0 → (Nat.toDigits 10 d).head? ≠ some '0' := by decide
        exact hall n hsmall hn
      · have hhead := ih (n / 10) (by omega) (by omega)
        rw [Nat.toDigits_of_base_le (by decide) (by omega)]
        cases hdigits : Nat.toDigits 10 (n / 10) with
        | nil => exact absurd hdigits Nat.toDigits_ne_nil
        | cons digit digits => rwa [hdigits] at hhead

theorem toDigits_eq_zero_or_head? (n : Nat) :
    Nat.toDigits 10 n = ['0'] ∨ (Nat.toDigits 10 n).head? ≠ some '0' := by
  by_cases hn : n = 0
  · exact .inl (by rw [hn]; rfl)
  · exact .inr (head?_toDigits hn)

/-! ## Layouts -/

namespace Layout

@[simp] theorem signOf_beq_minus (negative : Bool) :
    (signOf negative == some '-') = negative := by
  cases negative <;> rfl

theorem isSign_signOf (negative : Bool) :
    ∀ sign, signOf negative = some sign → Numeral.IsSign sign := by
  cases negative with
  | false => simp [signOf]
  | true => simp [signOf, Numeral.IsSign]

theorem positionalNumeral_wellFormed {wholeFraction : Option (List Char)}
    (hfraction : ∀ digits, wholeFraction = some digits → Numeral.AllDigits digits)
    (negative : Bool) (decimal : Decimal) :
    (positionalNumeral wholeFraction negative decimal).WellFormed := by
  have hdigits : Numeral.AllDigits decimal.digits := allDigits_toDigits decimal.coefficient
  have hne : decimal.digits ≠ [] := Nat.toDigits_ne_nil
  simp only [positionalNumeral]
  split
  · exact ⟨isSign_signOf negative, hdigits.append (allDigits_replicate_zero _), hfraction,
      by simp [Numeral.digits, hne], by simp⟩
  · split
    · refine ⟨isSign_signOf negative, allDigits_replicate_zero 1, ?_, by simp [Numeral.digits],
        by simp⟩
      rintro fraction ⟨⟩
      exact (allDigits_replicate_zero _).append hdigits
    · refine ⟨isSign_signOf negative, hdigits.take _, ?_, ?_, by simp⟩
      · rintro fraction ⟨⟩
        exact hdigits.drop _
      · simpa [Numeral.digits] using hne

theorem scientificNumeral_wellFormed (plusExponent negative : Bool) (leading : Int)
    {digits : List Char} (hdigits : Numeral.AllDigits digits) (hne : digits ≠ []) :
    (scientificNumeral plusExponent negative leading digits).WellFormed := by
  refine ⟨isSign_signOf negative, hdigits.take 1, ?_, ?_, ?_⟩
  · intro fraction hfraction
    obtain ⟨-, hfraction⟩ := Option.ite_none_left_eq_some.1 hfraction
    exact Option.some.inj hfraction ▸ hdigits.drop 1
  · simp [scientificNumeral, Numeral.digits, hne]
  · rintro exponent ⟨⟩
    refine ⟨.inr rfl, ?_, allDigits_toDigits _, Nat.toDigits_ne_nil⟩
    intro sign hsign
    split at hsign
    · exact .inr (Option.some.inj hsign).symm
    · split at hsign
      · exact .inl (Option.some.inj hsign).symm
      · contradiction

variable {layout : Layout}

theorem numeral_wellFormed
    (hfraction : ∀ digits, layout.wholeFraction = some digits → Numeral.AllDigits digits)
    (negative : Bool) (decimal : Decimal) : (layout.numeral negative decimal).WellFormed := by
  unfold numeral
  split
  · exact positionalNumeral_wellFormed hfraction negative decimal
  · exact scientificNumeral_wellFormed _ _ _ (allDigits_toDigits _) Nat.toDigits_ne_nil

theorem text_cases
    (hfraction : ∀ digits, layout.wholeFraction = some digits → Numeral.AllDigits digits)
    (value : Float) :
    layout.text value ∈ [layout.nan, layout.infinite, layout.negativeInfinite] ∨
      ∃ numeral : Numeral, numeral.WellFormed ∧ (layout.text value).toList = numeral.text := by
  unfold text
  cases floatParts value with
  | nan => exact .inl (by simp)
  | infinite negative => cases negative <;> exact .inl (by simp)
  | finite negative magnitude =>
      exact .inr ⟨_, numeral_wellFormed hfraction negative _, String.toList_ofList⟩

end Layout

/-! ## Characters -/

theorem not_mem_of_all_not {isOne : Char → Bool} {c : Char} (hc : isOne c = true)
    {others : List Char} (hothers : others.all (!isOne ·) = true) : c ∉ others := by
  intro hmem
  simpa [hc] using List.all_eq_true.1 hothers c hmem

theorem cons_ne_cons_of_not_mem {c other : Char} {others : List Char} (hc : c ∉ others)
    (hother : other ∈ others) (text rest : List Char) : c :: text ≠ other :: rest :=
  fun heq => hc ((List.cons.inj heq).1 ▸ hother)

def isNumeralChar (c : Char) : Bool :=
  c.isDigit || ['.', 'E', 'e', '+', '-'].contains c

theorem Numeral.IsSign.isNumeralChar {sign : Char} (hsign : IsSign sign) :
    isNumeralChar sign = true := by
  rcases hsign with rfl | rfl <;> rfl

theorem Numeral.AllDigits.isNumeralChar_of_mem {digits : List Char}
    (hdigits : AllDigits digits) {c : Char} (hc : c ∈ digits) : isNumeralChar c = true := by
  simp [isNumeralChar, hdigits c hc]

theorem NumeralExponent.WellFormed.isNumeralChar_of_mem {exponent : NumeralExponent}
    (hwell : exponent.WellFormed) {c : Char} (hc : c ∈ exponent.text) :
    isNumeralChar c = true := by
  obtain ⟨hmark, hsign, hdigits, -⟩ := hwell
  rcases List.mem_cons.1 hc with rfl | hc
  · rcases hmark with hmark | hmark <;> rw [hmark] <;> rfl
  · rcases List.mem_append.1 hc with hc | hc
    · exact (hsign c (Option.mem_toList.1 hc)).isNumeralChar
    · exact hdigits.isNumeralChar_of_mem hc

theorem Numeral.WellFormed.isNumeralChar_of_mem {numeral : Numeral}
    (hwell : numeral.WellFormed) {c : Char} (hc : c ∈ numeral.text) : isNumeralChar c = true := by
  simp only [text, List.mem_append] at hc
  rcases hc with hc | hc | hc | hc
  · exact (hwell.sign c (Option.mem_toList.1 hc)).isNumeralChar
  · exact hwell.whole.isNumeralChar_of_mem hc
  · cases hfraction : numeral.fraction with
    | none => simp [hfraction, fractionText] at hc
    | some digits =>
        rcases List.mem_cons.1 (hfraction ▸ hc) with rfl | hc
        · rfl
        · exact (hwell.fraction digits hfraction).isNumeralChar_of_mem hc
  · cases hexponent : numeral.exponent with
    | none => simp [hexponent, exponentText] at hc
    | some exponent =>
        rw [hexponent] at hc
        exact NumeralExponent.WellFormed.isNumeralChar_of_mem (hwell.exponent exponent hexponent) hc

theorem Numeral.stopsBefore_of_head (numeral : Numeral) {rest : List Char}
    (hrest : ∀ c, rest.head? = some c → isNumeralChar c = false) : numeral.StopsBefore rest where
  digit := by
    rintro ⟨digit, after, hdigit, rfl⟩
    have hchar := hrest digit rfl
    simp [isNumeralChar, hdigit] at hchar
  point _ _ hpoint := absurd (hrest '.' hpoint) (by decide)
  exponent _ := by
    rintro ⟨exponent, after, hwell, rfl⟩
    have hchar := hrest exponent.mark rfl
    rcases hwell.1 with hmark | hmark <;> rw [hmark] at hchar <;> contradiction

theorem Numeral.AllDigits.newline_not_mem {digits : List Char} (hdigits : AllDigits digits) :
    '\n' ∉ digits :=
  fun hc => absurd (hdigits '\n' hc) (by decide)

theorem Numeral.WellFormed.newline_not_mem {numeral : Numeral} (hwell : numeral.WellFormed) :
    '\n' ∉ numeral.text :=
  fun hc => absurd (hwell.isNumeralChar_of_mem hc) (by decide)

theorem Numeral.WellFormed.exists_head {numeral : Numeral} (hwell : numeral.WellFormed) :
    ∃ c text, isNumeralChar c = true ∧ numeral.text = c :: text := by
  cases htext : numeral.text with
  | nil =>
      simp only [text, List.append_eq_nil_iff] at htext
      obtain ⟨-, hwhole, hfractionText, -⟩ := htext
      cases hfraction : numeral.fraction with
      | none =>
          have hdigits : numeral.digits = [] := by simp [Numeral.digits, hwhole, hfraction]
          exact absurd hdigits hwell.digits
      | some digits => simp [hfraction, fractionText] at hfractionText
  | cons c text =>
      exact ⟨c, text, hwell.isNumeralChar_of_mem (htext ▸ List.mem_cons_self), rfl⟩

end Gcode
