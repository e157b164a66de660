import Gcode.Document.Toml
import Gcode.Proofs.Document.Number

/-!
# Numbers in TOML as they are written

A number may be followed by what would continue it, so all is stated for texts with more behind
them.  What starts with digits could also be a date or a time; the character behind the digits
decides.
-/

namespace Gcode.Toml

def StartsIn (stops : List Char) (text : List Char) : Prop :=
  ∀ c, text.head? = some c → c ∈ stops

def StopsNumber (text : List Char) : Prop := StartsIn [',', '\n'] text

def StopsWhole (text : List Char) : Prop := StartsIn ['.', ',', '\n'] text

theorem StopsNumber.stopsWhole {text : List Char} (h : StopsNumber text) : StopsWhole text :=
  fun c hc => List.mem_cons_of_mem _ (h c hc)

theorem StopsWhole.not_isDigit {c : Char} {text : List Char} (h : StopsWhole (c :: text)) :
    c.isDigit = false ∧ c ≠ '_' ∧ c ≠ '-' ∧ c ≠ ':' ∧ c ∉ ['x', 'o', 'b'] := by
  have hall : ∀ c ∈ ['.', ',', '\n'],
      c.isDigit = false ∧ c ≠ '_' ∧ c ≠ '-' ∧ c ≠ ':' ∧ c ∉ ['x', 'o', 'b'] := by simp
  exact hall c (h c rfl)

/-! ## Digits -/

theorem scanGroups_suffix {digits rest : List Char} (hdigits : Numeral.AllDigits digits)
    (hrest : StopsWhole rest) :
    scanGroups Char.isDigit (digits ++ rest) = (digits, rest) := by
  induction digits with
  | nil =>
      cases rest with
      | nil => rfl
      | cons c rest =>
          obtain ⟨hdigit, hunderscore, -⟩ := hrest.not_isDigit
          rw [List.nil_append, scanGroups]
          · simp [hdigit]
          · exact fun _ _ h => absurd h hunderscore
  | cons digit digits ih =>
      have hdigit := hdigits digit List.mem_cons_self
      rw [List.cons_append, scanGroups]
      · simp [hdigit, ih fun d hd => hdigits d (List.mem_cons_of_mem _ hd)]
      · rintro _ _ rfl
        contradiction

theorem scanDigits_suffix {digits rest : List Char} (hdigits : Numeral.AllDigits digits)
    (hne : digits ≠ []) (hrest : StopsWhole rest) :
    scanDigits Char.isDigit (digits ++ rest) = some (digits, rest) := by
  obtain ⟨digit, digits, rfl⟩ := List.exists_cons_of_ne_nil hne
  have hothers := scanGroups_suffix (fun d hd => hdigits d (List.mem_cons_of_mem _ hd)) hrest
  simp [scanDigits, hdigits digit List.mem_cons_self, hothers]

theorem scanWhole_suffix {whole rest : List Char} (hdigits : Numeral.AllDigits whole)
    (hne : whole ≠ []) (hzero : whole = ['0'] ∨ whole.head? ≠ some '0') (hrest : StopsWhole rest) :
    scanWhole (whole ++ rest) = some (whole, rest) := by
  rcases hzero with rfl | hzero
  · rfl
  · obtain ⟨digit, digits, rfl⟩ := List.exists_cons_of_ne_nil hne
    rw [List.cons_append, scanWhole, ← List.cons_append, scanDigits_suffix hdigits hne hrest]
    intro rest heq
    obtain ⟨rfl, -⟩ := List.cons.inj heq
    exact absurd rfl hzero

/-! ## Not a moment -/

theorem scanField_eq_some {width low high value : Nat} {text rest : List Char}
    (hfield : scanField width low high text = some (value, rest)) :
    ∃ digits, digits.length = width ∧ Numeral.AllDigits digits ∧ text = digits ++ rest := by
  simp only [scanField] at hfield
  split at hfield
  · next hdigits =>
      obtain ⟨hlength, hall⟩ := Bool.and_eq_true_iff.1 hdigits
      split at hfield
      · obtain ⟨-, rfl⟩ := Prod.mk.inj (Option.some.inj hfield)
        exact ⟨text.take width, by simpa using hlength, List.all_eq_true.1 hall,
          (List.take_append_drop width text).symm⟩
      · contradiction
  · contradiction

theorem scanChar_eq_some {c : Char} {text rest : List Char} (hchar : scanChar c text = some rest) :
    text = c :: rest := by
  cases text with
  | nil => contradiction
  | cons next text =>
      simp only [scanChar] at hchar
      split at hchar
      · next hnext => rw [hnext, Option.some.inj hchar]
      · contradiction

def StartsMoment (text : List Char) : Prop :=
  ∃ digits c after, digits ≠ [] ∧ Numeral.AllDigits digits ∧ (c = '-' ∨ c = ':') ∧
    text = digits ++ c :: after

theorem scanChar_scanField {width low high value : Nat} {text rest : List Char} {c : Char}
    (hmoment : ¬ StartsMoment text) (hwidth : 0 < width) (hc : c = '-' ∨ c = ':')
    (hfield : scanField width low high text = some (value, rest)) : scanChar c rest = none := by
  cases hchar : scanChar c rest with
  | none => rfl
  | some after =>
      obtain ⟨digits, hlength, hdigits, rfl⟩ := scanField_eq_some hfield
      obtain rfl := scanChar_eq_some hchar
      exact absurd ⟨digits, c, after, List.length_pos_iff.1 (hlength ▸ hwidth), hdigits, hc, rfl⟩
        hmoment

theorem scanMoment_eq_none {text : List Char} (hmoment : ¬ StartsMoment text) :
    scanMoment text = none := by
  have hdate : scanDate text = none := by
    cases hfield : scanField 4 0 9999 text with
    | none => simp [scanDate, hfield]
    | some year =>
        simp [scanDate, hfield,
          scanChar_scanField hmoment (by decide) (.inl rfl) hfield]
  have htime : scanTime text = none := by
    cases hfield : scanField 2 0 23 text with
    | none => simp [scanTime, hfield]
    | some hour =>
        simp [scanTime, hfield,
          scanChar_scanField hmoment (by decide) (.inr rfl) hfield]
  rw [scanMoment, hdate, htime]
  rfl

/-! ## Numerals -/

section

variable {negative : Bool} {whole rest : List Char}

theorem scanSign_whole (hdigits : Numeral.AllDigits whole) (hne : whole ≠ []) :
    scanSign ((Layout.signOf negative).toList ++ (whole ++ rest)) =
      (Layout.signOf negative, whole ++ rest) := by
  refine scanSign_suffix (Layout.isSign_signOf negative) fun _ c hc => ?_
  obtain ⟨digit, digits, rfl⟩ := List.exists_cons_of_ne_nil hne
  obtain rfl : digit = c := by simpa using hc
  exact not_isSign_of_isDigit (hdigits digit List.mem_cons_self)

theorem not_startsMoment (hdigits : Numeral.AllDigits whole) (hrest : StopsWhole rest) :
    ¬ StartsMoment ((Layout.signOf negative).toList ++ (whole ++ rest)) := by
  rintro ⟨first, c, after, hne, hfirst, hc, heq⟩
  cases negative with
  | true =>
      obtain ⟨digit, digits, rfl⟩ := List.exists_cons_of_ne_nil hne
      obtain ⟨rfl, -⟩ := List.cons.inj heq
      exact absurd (hfirst '-' List.mem_cons_self) (by decide)
  | false =>
      have hmark : ¬ StartsDigit (c :: after) :=
        not_startsDigit_of_head (by rcases hc with rfl | rfl <;> simp)
      have hstop : ¬ StartsDigit rest := by
        rintro ⟨digit, text, hdigit, rfl⟩
        exact absurd hdigit (by simp [hrest.not_isDigit.1])
      have hafter : rest = c :: after := by
        rw [← dropWhile_digits_suffix hdigits hstop, ← dropWhile_digits_suffix hfirst hmark]
        exact congrArg _ heq
      subst hafter
      obtain ⟨-, -, hdash, hcolon, -⟩ := hrest.not_isDigit
      exact hc.elim hdash hcolon

theorem second_not_mem {c : Char} {after : List Char} (hdigits : Numeral.AllDigits whole)
    (hne : whole ≠ []) (hrest : StopsWhole rest)
    (heq : (Layout.signOf negative).toList ++ (whole ++ rest) = '0' :: c :: after) :
    c ∉ ['x', 'o', 'b'] := by
  cases negative with
  | true => exact absurd (List.cons.inj heq).1 (by decide)
  | false =>
      match whole with
      | [digit] =>
          obtain rfl : rest = c :: after := (List.cons.inj heq).2
          exact hrest.not_isDigit.2.2.2.2
      | digit :: second :: digits =>
          obtain ⟨rfl, -⟩ := List.cons.inj (List.cons.inj heq).2
          exact not_mem_of_all_not (hdigits second (by simp)) (by decide)

theorem scanNumber_whole (hdigits : Numeral.AllDigits whole) (hne : whole ≠ [])
    (hrest : StopsWhole rest) :
    scanNumber ((Layout.signOf negative).toList ++ (whole ++ rest)) =
      scanDecimal ((Layout.signOf negative).toList ++ (whole ++ rest)) := by
  have hspecial : scanSpecial ((Layout.signOf negative).toList ++ (whole ++ rest)) = none := by
    rw [scanSpecial, scanSign_whole hdigits hne]
    obtain ⟨digit, digits, rfl⟩ := List.exists_cons_of_ne_nil hne
    have hdigit := hdigits digit List.mem_cons_self
    simp only [List.cons_append]
    split
    · next heq => obtain ⟨rfl, -⟩ := List.cons.inj heq; contradiction
    · next heq => obtain ⟨rfl, -⟩ := List.cons.inj heq; contradiction
    · rfl
  unfold scanNumber
  split
  · next heq => exact absurd (by simp) (second_not_mem hdigits hne hrest heq)
  · next heq => exact absurd (by simp) (second_not_mem hdigits hne hrest heq)
  · next heq => exact absurd (by simp) (second_not_mem hdigits hne hrest heq)
  · rw [scanMoment_eq_none (not_startsMoment hdigits hrest), hspecial]
    rfl

theorem scanExponent_stop (hrest : StopsNumber rest) : scanExponent rest = some (none, rest) := by
  cases rest with
  | nil => rfl
  | cons c rest =>
      have hc := hrest c rfl
      have hall : ∀ c ∈ [',', '\n'], ¬ (c = 'e' || c = 'E') = true := by simp
      rw [scanExponent, if_neg (hall c hc)]

end

theorem scanNumber_integer {value : Int} (hlow : -0x8000000000000000 ≤ value)
    (hhigh : value < 0x8000000000000000) {rest : List Char} (hrest : StopsNumber rest) :
    scanNumber ((Layout.signOf (value < 0)).toList ++ (Nat.toDigits 10 value.natAbs ++ rest)) =
      some (.integer value, rest) := by
  have hdigits := allDigits_toDigits value.natAbs
  have hne : Nat.toDigits 10 value.natAbs ≠ [] := Nat.toDigits_ne_nil
  have hzero := toDigits_eq_zero_or_head? value.natAbs
  rw [scanNumber_whole hdigits hne hrest.stopsWhole, scanDecimal, scanSign_whole hdigits hne]
  have hpoint : ∀ text, rest ≠ '.' :: text := by
    rintro text rfl
    exact absurd (hrest '.' rfl) (by decide)
  have hbounded : boundedInteger? (Layout.signOf (decide (value < 0)) == some '-') value.natAbs =
      some (.integer value) := by
    simp only [boundedInteger?, Layout.signOf_beq_minus, decide_eq_true_eq]
    split
    · rw [if_pos (by omega)]
      exact congrArg (some <| Document.integer ·) (by omega)
    · rw [if_pos (by omega)]
      exact congrArg (some <| Document.integer ·) (by omega)
  simp only [Option.bind_eq_bind, Option.bind_some,
    scanWhole_suffix hdigits hne hzero hrest.stopsWhole, scanExponent_stop hrest,
    digitsValue_toDigits, Numeral.negative, hbounded]
  rfl

/-! ## Doubles -/

def ReadsBack (value : Float) : Prop :=
  scanNumber (layout.text value).toList = some (.float value, [])

structure IsPositional (numeral : Numeral) (negative : Bool) (whole fraction : List Char) :
    Prop where
  eq : numeral = ⟨Layout.signOf negative, whole, some fraction, none⟩
  allDigits_whole : Numeral.AllDigits whole
  whole_ne_nil : whole ≠ []
  allDigits_fraction : Numeral.AllDigits fraction
  fraction_ne_nil : fraction ≠ []

theorem exists_isPositional (negative : Bool) (decimal : Decimal) :
    ∃ whole fraction,
      IsPositional (Layout.positionalNumeral (some ['0']) negative decimal) negative whole
        fraction := by
  have hdigits : Numeral.AllDigits decimal.digits := allDigits_toDigits decimal.coefficient
  have hne : decimal.digits ≠ [] := Nat.toDigits_ne_nil
  have hlength : 0 < decimal.digits.length := List.length_pos_iff.2 hne
  simp only [Layout.positionalNumeral]
  split
  · exact ⟨_, _, rfl, hdigits.append (allDigits_replicate_zero _), by simp [hne],
      allDigits_replicate_zero 1, by simp⟩
  · split
    · exact ⟨_, _, rfl, allDigits_replicate_zero 1, by simp,
        (allDigits_replicate_zero _).append hdigits, by simp [hne]⟩
    · refine ⟨_, _, rfl, hdigits.take _, ?_, hdigits.drop _, ?_⟩
      · simp [hne]
        omega
      · simp
        omega

namespace IsPositional

variable {numeral : Numeral} {negative : Bool} {whole fraction rest : List Char}

theorem text_append (h : IsPositional numeral negative whole fraction) (rest : List Char) :
    numeral.text ++ rest =
      (Layout.signOf negative).toList ++ (whole ++ ('.' :: (fraction ++ rest))) := by
  simp [h.eq, Numeral.text, Numeral.fractionText, Numeral.exponentText]

theorem scanNumber_of_zero (h : IsPositional numeral negative whole fraction)
    (hzero : ¬ (whole = ['0'] ∨ whole.head? ≠ some '0')) (rest : List Char) :
    ∃ after, scanNumber (numeral.text ++ rest) = some (.integer 0, after) := by
  have hstop : StopsWhole ('.' :: (fraction ++ rest)) := by simp [StopsWhole, StartsIn]
  rw [h.text_append, scanNumber_whole h.allDigits_whole h.whole_ne_nil hstop, scanDecimal,
    scanSign_whole h.allDigits_whole h.whole_ne_nil]
  match whole, h.allDigits_whole with
  | [], _ => exact absurd (.inr (by simp)) hzero
  | [digit], _ =>
      obtain ⟨hsingle, hhead⟩ := not_or.1 hzero
      simp_all
  | digit :: second :: digits, hdigits =>
      obtain rfl : digit = '0' := by simpa using hzero
      have hsecond := hdigits second (by simp)
      have hmark : ¬ (second = 'e' || second = 'E') = true := by
        intro hmark
        rcases Bool.or_eq_true_iff.1 hmark with hmark | hmark <;>
          rw [of_decide_eq_true hmark] at hsecond <;> contradiction
      have hpoint : ∀ text, second :: (digits ++ '.' :: (fraction ++ rest)) ≠ '.' :: text := by
        rintro text heq
        obtain ⟨rfl, -⟩ := List.cons.inj heq
        contradiction
      refine ⟨second :: (digits ++ '.' :: (fraction ++ rest)), ?_⟩
      simp only [Option.bind_eq_bind, Option.bind_some, List.cons_append, scanWhole, scanExponent,
        if_neg hmark]
      cases negative <;> rfl

theorem scanNumber_text (h : IsPositional numeral negative whole fraction)
    (hzero : whole = ['0'] ∨ whole.head? ≠ some '0') (hrest : StopsNumber rest) :
    scanNumber (numeral.text ++ rest) =
      if numeral.value == infinity then none else some (.float numeral.value, rest) := by
  have hstop : StopsWhole ('.' :: (fraction ++ rest)) := by simp [StopsWhole, StartsIn]
  have hfraction := scanDigits_suffix h.allDigits_fraction h.fraction_ne_nil hrest.stopsWhole
  rw [h.text_append, scanNumber_whole h.allDigits_whole h.whole_ne_nil hstop, scanDecimal,
    scanSign_whole h.allDigits_whole h.whole_ne_nil]
  simp only [Option.bind_eq_bind, Option.bind_some, Option.map_some,
    scanWhole_suffix h.allDigits_whole h.whole_ne_nil hzero hstop, hfraction,
    scanExponent_stop hrest]
  rw [← h.eq]
  rfl

end IsPositional

theorem layout_text_cases (value : Float) :
    layout.text value ∈ ["nan", "inf", "-inf"] ∨
      ∃ numeral negative whole fraction, IsPositional numeral negative whole fraction ∧
        (layout.text value).toList = numeral.text := by
  unfold Layout.text
  cases floatParts value with
  | nan => exact .inl (by decide)
  | infinite negative => cases negative <;> exact .inl (by decide)
  | finite negative magnitude =>
      obtain ⟨whole, fraction, hpositional⟩ :=
        exists_isPositional negative (.shortest layout.tie magnitude)
      exact .inr ⟨_, negative, whole, fraction, hpositional, String.toList_ofList⟩

theorem scanNumber_word {word : String} (hword : word ∈ ["nan", "inf", "-inf"])
    (rest : List Char) :
    ∃ value, scanNumber (word.toList ++ rest) = some (.float value, rest) ∧
      scanNumber word.toList = some (.float value, []) := by
  have hmoment {c : Char} {text : List Char} (hc : c.isDigit = false) :
      ¬ StartsMoment (c :: text) := by
    rintro ⟨digits, mark, after, hne, hdigits, -, heq⟩
    obtain ⟨digit, digits, rfl⟩ := List.exists_cons_of_ne_nil hne
    obtain ⟨rfl, -⟩ := List.cons.inj heq
    exact absurd (hdigits c List.mem_cons_self) (by simp [hc])
  have hscan {c : Char} {text : List Char} (hc : c.isDigit = false) {value : Float}
      {rest : List Char} (hspecial : scanSpecial (c :: text) = some (.float value, rest)) :
      scanNumber (c :: text) = some (.float value, rest) := by
    unfold scanNumber
    split
    · next heq => obtain ⟨rfl, -⟩ := List.cons.inj heq; contradiction
    · next heq => obtain ⟨rfl, -⟩ := List.cons.inj heq; contradiction
    · next heq => obtain ⟨rfl, -⟩ := List.cons.inj heq; contradiction
    · rw [scanMoment_eq_none (hmoment hc), hspecial]
      rfl
  simp only [List.mem_cons, List.not_mem_nil, or_false] at hword
  rcases hword with rfl | rfl | rfl
  · exact ⟨0 / 0, hscan rfl rfl, hscan rfl rfl⟩
  · exact ⟨infinity, hscan rfl rfl, hscan rfl rfl⟩
  · exact ⟨-infinity, hscan rfl rfl, hscan rfl rfl⟩

theorem scanNumber_float {value : Float} (hvalue : ReadsBack value) {rest : List Char}
    (hrest : StopsNumber rest) :
    scanNumber ((layout.text value).toList ++ rest) = some (.float value, rest) := by
  unfold ReadsBack at hvalue
  rcases layout_text_cases value with hword | ⟨numeral, negative, whole, fraction, h, htext⟩
  · obtain ⟨other, hmore, halone⟩ := scanNumber_word hword rest
    obtain rfl : value = other := by simpa using hvalue.symm.trans halone
    exact hmore
  · rw [htext] at hvalue ⊢
    by_cases hzero : whole = ['0'] ∨ whole.head? ≠ some '0'
    · have hend : StopsNumber [] := nofun
      have halone := h.scanNumber_text hzero hend
      rw [List.append_nil, hvalue] at halone
      rw [h.scanNumber_text hzero hrest]
      split at halone <;> simp_all
    · obtain ⟨after, halone⟩ := h.scanNumber_of_zero hzero []
      rw [List.append_nil, hvalue] at halone
      simp at halone

end Gcode.Toml
