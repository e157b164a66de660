import Gcode.Decimal.Numeral

/-!
# The end of a numeral

`scanNumeral` reads a well-formed numeral up to where no character can continue it.
`Numeral.StopsBefore` describes that place by the text behind the numeral alone, so it still holds
when some of that text is cut off.  Hence a numeral that was read is read again after a cut,
although the scanner looks ahead into an exponent.
-/

namespace Gcode

def NumeralExponent.WellFormed (exponent : NumeralExponent) : Prop :=
  (exponent.mark = 'E' ∨ exponent.mark = 'e') ∧
    (∀ sign, exponent.sign = some sign → Numeral.IsSign sign) ∧
    Numeral.AllDigits exponent.digits ∧ exponent.digits ≠ []

def StartsExponent (text : List Char) : Prop :=
  ∃ exponent after, NumeralExponent.WellFormed exponent ∧ text = exponent.text ++ after

def StartsDigit (text : List Char) : Prop :=
  ∃ digit after, digit.isDigit = true ∧ text = digit :: after

structure Numeral.StopsBefore (numeral : Numeral) (rest : List Char) : Prop where
  digit : ¬ StartsDigit rest
  point : numeral.fraction = none → numeral.exponent = none → rest.head? ≠ some '.'
  exponent : numeral.exponent = none → ¬ StartsExponent rest

namespace Numeral

/-! ## Cutting the text behind a numeral -/

theorem StopsBefore.of_append {numeral : Numeral} {tail cut : List Char}
    (h : numeral.StopsBefore (tail ++ cut)) : numeral.StopsBefore tail where
  digit := by
    rintro ⟨digit, after, hdigit, rfl⟩
    exact h.digit ⟨digit, after ++ cut, hdigit, rfl⟩
  point hfraction hexponent hhead := by
    refine h.point hfraction hexponent ?_
    rw [List.head?_append, hhead, Option.some_or]
  exponent hexponent := by
    rintro ⟨exponent, after, hwell, rfl⟩
    exact h.exponent hexponent ⟨exponent, after ++ cut, hwell, List.append_assoc _ _ _⟩

end Numeral

/-! ## Digits -/

theorem not_startsDigit_of_head {text : List Char}
    (h : ∀ c, text.head? = some c → c.isDigit = false) : ¬ StartsDigit text := by
  rintro ⟨digit, after, hdigit, rfl⟩
  rw [h digit rfl] at hdigit
  contradiction

theorem not_startsDigit_dropWhile (text : List Char) :
    ¬ StartsDigit (text.dropWhile Char.isDigit) := by
  rintro ⟨digit, after, hdigit, heq⟩
  have hhead := List.head?_dropWhile_not Char.isDigit text
  rw [heq, List.head?_cons] at hhead
  simp [hdigit] at hhead

theorem takeWhile_eq_nil_of_not_startsDigit {text : List Char} (h : ¬ StartsDigit text) :
    text.takeWhile Char.isDigit = [] := by
  cases text with
  | nil => rfl
  | cons c text =>
      have hc : ¬ c.isDigit = true := fun hc => h ⟨c, text, hc, rfl⟩
      simp [hc]

theorem takeWhile_digits_suffix {digits rest : List Char} (hdigits : Numeral.AllDigits digits)
    (hrest : ¬ StartsDigit rest) :
    (digits ++ rest).takeWhile Char.isDigit = digits := by
  rw [List.takeWhile_append_of_pos hdigits, takeWhile_eq_nil_of_not_startsDigit hrest,
    List.append_nil]

theorem dropWhile_digits_suffix {digits rest : List Char} (hdigits : Numeral.AllDigits digits)
    (hrest : ¬ StartsDigit rest) :
    (digits ++ rest).dropWhile Char.isDigit = rest := by
  have hcut := List.takeWhile_append_dropWhile (p := Char.isDigit) (l := digits ++ rest)
  rw [takeWhile_digits_suffix hdigits hrest] at hcut
  exact List.append_cancel_left hcut

theorem allDigits_takeWhile (text : List Char) :
    Numeral.AllDigits (text.takeWhile Char.isDigit) :=
  List.all_eq_true.1 List.all_takeWhile

/-! ## Signs -/

theorem scanSign_suffix {sign : Option Char} {rest : List Char}
    (hsign : ∀ s, sign = some s → Numeral.IsSign s)
    (hrest : sign = none → ∀ c, rest.head? = some c → ¬ Numeral.IsSign c) :
    scanSign (sign.toList ++ rest) = (sign, rest) := by
  cases sign with
  | some s =>
      rcases hsign s rfl with rfl | rfl <;> rfl
  | none =>
      cases rest with
      | nil => rfl
      | cons c rest =>
          have hc := hrest rfl c rfl
          simp only [Numeral.IsSign, not_or] at hc
          unfold scanSign
          split <;> simp_all

theorem scanSign_isSign {text : List Char} :
    ∀ s, (scanSign text).1 = some s → Numeral.IsSign s := by
  intro s hs
  unfold scanSign at hs
  split at hs <;> cases hs
  · exact .inl rfl
  · exact .inr rfl

theorem not_isSign_of_isDigit {c : Char} (h : c.isDigit = true) : ¬ Numeral.IsSign c := by
  rintro (rfl | rfl) <;> contradiction

/-! ## Exponents -/

theorem scanExponent_suffix {exponent : NumeralExponent} {rest : List Char}
    (hwell : exponent.WellFormed) (hrest : ¬ StartsDigit rest) :
    scanExponent (exponent.text ++ rest) = (some exponent, rest) := by
  obtain ⟨mark, sign, digits⟩ := exponent
  obtain ⟨hmark, hsign, hdigits, hne⟩ := hwell
  obtain ⟨digit, others, rfl⟩ := List.exists_cons_of_ne_nil hne
  have hscan : scanSign (sign.toList ++ (digit :: others ++ rest)) =
      (sign, digit :: others ++ rest) := by
    refine scanSign_suffix hsign ?_
    rintro - c hc
    obtain rfl : digit = c := by simpa using hc
    exact not_isSign_of_isDigit (hdigits digit List.mem_cons_self)
  simp only [NumeralExponent.text, List.cons_append, List.append_assoc, scanExponent]
  rw [if_pos hmark, ← List.cons_append, hscan]
  simp only [takeWhile_digits_suffix hdigits hrest, dropWhile_digits_suffix hdigits hrest]

theorem scanExponent_wellFormed {text : List Char} {exponent : NumeralExponent}
    (h : (scanExponent text).1 = some exponent) :
    exponent.WellFormed ∧ ¬ StartsDigit (scanExponent text).2 := by
  cases text with
  | nil => simp [scanExponent] at h
  | cons mark rest =>
      simp only [scanExponent] at h ⊢
      split at h
      · next hmark =>
          rw [if_pos hmark]
          split at h
          · contradiction
          · next digit digits hdigits =>
              cases h
              have hall := allDigits_takeWhile (scanSign rest).2
              rw [hdigits] at hall
              exact ⟨⟨hmark, scanSign_isSign, hall, List.cons_ne_nil _ _⟩,
                not_startsDigit_dropWhile _⟩
      · contradiction

theorem scanExponent_eq_none_iff {text : List Char} :
    (scanExponent text).1 = none ↔ ¬ StartsExponent text := by
  constructor
  · rintro hnone ⟨exponent, after, ⟨hmark, hsign, hdigits, hne⟩, rfl⟩
    let longer : NumeralExponent :=
      { exponent with digits := exponent.digits ++ after.takeWhile Char.isDigit }
    have hwell : longer.WellFormed := by
      refine ⟨hmark, hsign, ?_, by simp [longer, hne]⟩
      intro digit hdigit
      rcases List.mem_append.1 hdigit with hdigit | hdigit
      · exact hdigits digit hdigit
      · exact allDigits_takeWhile after digit hdigit
    have htext : exponent.text ++ after = longer.text ++ after.dropWhile Char.isDigit := by
      simp [longer, NumeralExponent.text, List.takeWhile_append_dropWhile]
    rw [htext, scanExponent_suffix hwell (not_startsDigit_dropWhile after)] at hnone
    contradiction
  · intro hstarts
    cases h : (scanExponent text).1 with
    | none => rfl
    | some exponent =>
        have htext := scanExponent_text text
        rw [h] at htext
        exact absurd ⟨exponent, _, (scanExponent_wellFormed h).1, htext.symm⟩ hstarts

theorem scanExponent_rest {text : List Char} (h : (scanExponent text).1 = none) :
    (scanExponent text).2 = text := by
  have htext := scanExponent_text text
  rwa [h] at htext

/-! ## Whole numerals -/

namespace Numeral

theorem StopsBefore.not_startsDigit {numeral : Numeral} {rest : List Char}
    (hwell : numeral.WellFormed) (hstops : numeral.StopsBefore rest) :
    ¬ StartsDigit (exponentText numeral.exponent ++ rest) := by
  cases h : numeral.exponent with
  | none => exact hstops.digit
  | some exponent =>
      refine not_startsDigit_of_head fun c hc => ?_
      obtain rfl : exponent.mark = c := by
        simpa [exponentText, NumeralExponent.text] using hc
      rcases (hwell.exponent exponent h).1 with hmark | hmark <;> rw [hmark] <;> rfl

theorem WellFormed.exists_fraction {numeral : Numeral} (hwell : numeral.WellFormed)
    (hwhole : numeral.whole = []) :
    ∃ digits, numeral.fraction = some digits ∧ digits ≠ [] := by
  have hdigits := hwell.digits
  cases hfraction : numeral.fraction with
  | none => simp [Numeral.digits, hwhole, hfraction] at hdigits
  | some digits => exact ⟨digits, rfl, by simpa [Numeral.digits, hwhole, hfraction] using hdigits⟩

theorem scanSign_text_append {numeral : Numeral} {rest : List Char}
    (hwell : numeral.WellFormed) :
    scanSign (numeral.text ++ rest) =
      (numeral.sign, numeral.whole ++
        (fractionText numeral.fraction ++ (exponentText numeral.exponent ++ rest))) := by
  simp only [text, List.append_assoc]
  refine scanSign_suffix hwell.sign fun _ c hc => ?_
  cases hwhole : numeral.whole with
  | cons digit whole =>
      obtain rfl : digit = c := by simpa [hwhole] using hc
      exact not_isSign_of_isDigit (hwell.whole digit (by simp [hwhole]))
  | nil =>
      obtain ⟨fraction, hfraction, -⟩ := hwell.exists_fraction hwhole
      obtain rfl : '.' = c := by simpa [hwhole, hfraction, fractionText] using hc
      rintro (h | h) <;> contradiction

theorem scanFraction_text_append {numeral : Numeral} {rest : List Char}
    (hwell : numeral.WellFormed) (hstops : numeral.StopsBefore rest) :
    scanFraction (fractionText numeral.fraction ++ (exponentText numeral.exponent ++ rest)) =
      (numeral.fraction, exponentText numeral.exponent ++ rest) := by
  have hdigit := hstops.not_startsDigit hwell
  cases hfraction : numeral.fraction with
  | some fraction =>
      have hdigits := hwell.fraction fraction hfraction
      simp only [fractionText, List.cons_append, scanFraction]
      rw [takeWhile_digits_suffix hdigits hdigit, dropWhile_digits_suffix hdigits hdigit]
  | none =>
      have hpoint : (exponentText numeral.exponent ++ rest).head? ≠ some '.' := by
        cases hexponent : numeral.exponent with
        | none => exact hstops.point hfraction hexponent
        | some exponent =>
            rcases (hwell.exponent exponent hexponent).1 with hmark | hmark <;>
              simp [exponentText, NumeralExponent.text, hmark]
      simp only [fractionText, List.nil_append]
      unfold scanFraction
      split
      · next hhead => simp [hhead] at hpoint
      · rfl

theorem scanNumeral_suffix {numeral : Numeral} {rest : List Char}
    (hwell : numeral.WellFormed) (hstops : numeral.StopsBefore rest) :
    scanNumeral (numeral.text ++ rest) = some (numeral, rest) := by
  have hdigit := hstops.not_startsDigit hwell
  have hfractionDigit : ¬ StartsDigit
      (fractionText numeral.fraction ++ (exponentText numeral.exponent ++ rest)) := by
    cases numeral.fraction with
    | none => exact hdigit
    | some fraction => exact not_startsDigit_of_head (by simp [fractionText])
  have hexponent : scanExponent (exponentText numeral.exponent ++ rest) =
      (numeral.exponent, rest) := by
    cases h : numeral.exponent with
    | some exponent =>
        exact scanExponent_suffix (hwell.exponent exponent h) hstops.digit
    | none =>
        have hnone := scanExponent_eq_none_iff.2 (hstops.exponent h)
        exact Prod.ext hnone (scanExponent_rest hnone)
  have hnonempty : ¬ (numeral.whole ++ numeral.fraction.getD []).isEmpty = true := by
    simpa [digits] using hwell.digits
  simp only [scanNumeral, scanSign_text_append hwell,
    takeWhile_digits_suffix hwell.whole hfractionDigit,
    dropWhile_digits_suffix hwell.whole hfractionDigit, scanFraction_text_append hwell hstops,
    hexponent, if_neg hnonempty]

end Numeral

theorem scanFraction_wellFormed {text : List Char} (h : ¬ StartsDigit text) :
    (∀ digits, (scanFraction text).1 = some digits → Numeral.AllDigits digits) ∧
      ¬ StartsDigit (scanFraction text).2 ∧
      ((scanFraction text).1 = none → (scanFraction text).2.head? ≠ some '.') := by
  unfold scanFraction
  split
  · next rest =>
      refine ⟨?_, not_startsDigit_dropWhile rest, by simp⟩
      rintro digits ⟨⟩
      exact allDigits_takeWhile rest
  · next rest hpoint =>
      refine ⟨by simp, h, fun _ hhead => ?_⟩
      obtain ⟨after, rfl⟩ := List.head?_eq_some_iff.1 hhead
      exact hpoint after rfl

theorem scanNumeral_wellFormed {text rest : List Char} {numeral : Numeral}
    (h : scanNumeral text = some (numeral, rest)) :
    numeral.WellFormed ∧ numeral.StopsBefore rest := by
  simp only [scanNumeral] at h
  split at h
  · contradiction
  · next hnonempty =>
      obtain ⟨rfl, rfl⟩ := Prod.mk.inj (Option.some.inj h)
      obtain ⟨hfraction, hdigit, hpoint⟩ :=
        scanFraction_wellFormed (not_startsDigit_dropWhile (scanSign text).2)
      refine ⟨⟨scanSign_isSign, allDigits_takeWhile _, hfraction,
        by simpa [Numeral.digits] using hnonempty,
        fun exponent hexponent => (scanExponent_wellFormed hexponent).1⟩, ?_, ?_, ?_⟩
      · cases hexponent : (scanExponent (scanFraction
            ((scanSign text).2.dropWhile Char.isDigit)).2).1 with
        | none => rwa [scanExponent_rest hexponent]
        | some exponent => exact (scanExponent_wellFormed hexponent).2
      · intro hnone hexponent
        rw [scanExponent_rest hexponent]
        exact hpoint hnone
      · intro hexponent
        rw [scanExponent_rest hexponent]
        exact scanExponent_eq_none_iff.1 hexponent

theorem scanNumeral_cut {text tail cut : List Char} {numeral : Numeral}
    (h : scanNumeral text = some (numeral, tail ++ cut)) :
    scanNumeral (numeral.text ++ tail) = some (numeral, tail) := by
  obtain ⟨hwell, hstops⟩ := scanNumeral_wellFormed h
  exact Numeral.scanNumeral_suffix hwell hstops.of_append

end Gcode
