import Gcode.Proofs.Text.Utf8
import Gcode.Proofs.Words.Grammar

/-!
# Words read byte by byte

A scanner with a cursor looks at the bytes of a line and cuts the text of a number out of it, to
hand that to a reader of doubles.  Here it is written with all of its accesses checked: a byte that
is not in the line and a cut within a character are a `Breach`.  No line and no cursor leads to one,
and what is read are the numbers and words of `numberAt` and `wordAt`.
-/

namespace Gcode

/-! ## Checked accesses -/

/-- What no scanner may do with a line. -/
inductive Breach where
  | outside
  | withinCharacter
  deriving DecidableEq, Repr

/-- What comes of a scan that checks its accesses. -/
abbrev Checked := Except Breach

inductive NumberFault where
  | noDigit
  | refused
  deriving DecidableEq, Repr

def isByteOf (kind : Char → Bool) (byte : UInt8) : Bool :=
  decide (byte.toNat < 0x80) && kind (Char.ofNat byte.toNat)

def isSignChar (c : Char) : Bool := c == '+' || c == '-'

def isExponentMark (c : Char) : Bool := c == 'E' || c == 'e'

/-- A reader of doubles that takes every text of the grammar of numbers, and finds the nearest
double. -/
def ReadsNumerals (parse : List Char → Option Float) : Prop :=
  ∀ numeral : Numeral, numeral.WellFormed → parse numeral.text = some numeral.value

namespace Checked

def byteAt (bytes : List UInt8) (position : Nat) : Checked UInt8 :=
  match bytes[position]? with
  | some byte => return byte
  | none => throw .outside

def cut (line : List Char) (start stop : Nat) : Checked (List Char) :=
  match suffixAt line start, suffixAt line stop with
  | some text, some rest =>
    if start ≤ stop then return text.take (text.length - rest.length) else throw .withinCharacter
  | _, _ => throw .withinCharacter

def standsAt (kind : Char → Bool) (bytes : List UInt8) (position : Nat) : Checked Bool :=
  if position < bytes.length then do
    let byte ← byteAt bytes position
    return isByteOf kind byte
  else return false

def digitsEnd (bytes : List UInt8) (position : Nat) : Checked Nat :=
  if position < bytes.length then do
    let byte ← byteAt bytes position
    if isByteOf Char.isDigit byte then digitsEnd bytes (position + 1) else return position
  else return position
termination_by bytes.length - position

def signEnd (bytes : List UInt8) (position : Nat) : Checked Nat := do
  if ← standsAt isSignChar bytes position then return position + 1 else return position

def fractionEnd (bytes : List UInt8) (position : Nat) : Checked (Nat × Nat) := do
  if ← standsAt (· == '.') bytes position then
    let stop ← digitsEnd bytes (position + 1)
    return (stop, stop - (position + 1))
  else return (position, 0)

def exponentEnd (bytes : List UInt8) (position : Nat) : Checked Nat := do
  if ← standsAt isExponentMark bytes position then
    let start ← signEnd bytes (position + 1)
    let stop ← digitsEnd bytes start
    return if start < stop then stop else position
  else return position

def numberEnd (bytes : List UInt8) (start : Nat) : Checked (Option Nat) := do
  let whole ← signEnd bytes start
  let point ← digitsEnd bytes whole
  let (mark, places) ← fractionEnd bytes point
  if (point - whole) + places = 0 then return none
  else return some (← exponentEnd bytes mark)

def numberAt (parse : List Char → Option Float) (line : List Char) (start : Nat) :
    Checked (Except NumberFault (Float × Nat)) := do
  match ← numberEnd (encodeText line) start with
  | none => return .error .noDigit
  | some stop =>
    match parse (← cut line start stop) with
    | some value => return .ok (value, stop)
    | none => return .error .refused

def wordAt (parse : List Char → Option Float) (line : List Char) (cursor : Nat) :
    Checked (Except LineError (Option (Word × Nat))) :=
  match (suffixAt line cursor).bind List.head? with
  | none => return .ok none
  | some letter =>
    if isCommandLetter letter then do
      match ← numberAt parse line (cursor + 1) with
      | .ok (value, stop) => return .ok (some (⟨letter, value⟩, stop))
      | .error _ => return .error (.badNumberFormat (cursor + 1))
    else return .error (.expectedCommandLetter cursor letter)

end Checked

/-! ## Bytes of a kind -/

theorem isByteOf_of_le {kind : Char → Bool} {byte : UInt8} (h : 0x80 ≤ byte.toNat) :
    isByteOf kind byte = false := by
  simp [isByteOf, Nat.not_lt_of_le h]

theorem exists_head_utf8EncodeChar {kind : Char → Bool}
    (hascii : ∀ c, kind c = true → c.toNat < 0x80) (c : Char) :
    ∃ byte bytes, String.utf8EncodeChar c = byte :: bytes ∧ isByteOf kind byte = kind c := by
  by_cases hc : c.toNat < 0x80
  · have hcode : (UInt8.ofNat c.toNat).toNat = c.toNat := by
      rw [UInt8.toNat_ofNat', Nat.mod_eq_of_lt (by omega)]
    refine ⟨UInt8.ofNat c.toNat, [], utf8EncodeChar_of_toNat_lt hc, ?_⟩
    rw [isByteOf, hcode, Char.ofNat_toNat, decide_eq_true hc, Bool.true_and]
  · obtain ⟨byte, bytes, hbytes⟩ :=
      List.exists_cons_of_ne_nil (@String.utf8EncodeChar_ne_nil c)
    have hbyte : 0x80 ≤ byte.toNat :=
      le_toNat_of_mem_utf8EncodeChar (Nat.le_of_not_lt hc) (hbytes ▸ List.mem_cons_self)
    refine ⟨byte, bytes, hbytes, ?_⟩
    rw [isByteOf_of_le hbyte, Bool.eq_false_iff.2 (mt (hascii c) hc)]

theorem toNat_lt_of_isDigit {c : Char} (h : c.isDigit = true) : c.toNat < 0x80 := by
  obtain ⟨-, hnine⟩ := toNat_of_isDigit h
  omega

theorem toNat_lt_of_isSignChar {c : Char} (h : isSignChar c = true) : c.toNat < 0x80 := by
  simp only [isSignChar, Bool.or_eq_true, beq_iff_eq] at h
  rcases h with rfl | rfl <;> decide

theorem toNat_lt_of_isExponentMark {c : Char} (h : isExponentMark c = true) : c.toNat < 0x80 := by
  simp only [isExponentMark, Bool.or_eq_true, beq_iff_eq] at h
  rcases h with rfl | rfl <;> decide

theorem toNat_lt_of_beq_point {c : Char} (h : (c == '.') = true) : c.toNat < 0x80 := by
  rw [beq_iff_eq.1 h]
  decide

namespace Checked

variable {kind : Char → Bool} {line : List Char} {position : Nat}

/-! ## Behind a part of the line -/

theorem byteAt_of_getElem? {bytes : List UInt8} {byte : UInt8}
    (hbyte : bytes[position]? = some byte) : byteAt bytes position = pure byte := by
  rw [byteAt, hbyte]

theorem byteAt_append (before : List Char) {c : Char} {rest : List Char} {byte : UInt8}
    {bytes : List UInt8} (hbytes : String.utf8EncodeChar c = byte :: bytes) :
    byteAt (encodeText (before ++ c :: rest)) (byteLength before) = pure byte := by
  refine byteAt_of_getElem? ?_
  rw [getElem?_encodeText_append, encodeText_cons, hbytes]
  rfl

theorem byteLength_lt_of_cons (before : List Char) (c : Char) (rest : List Char) :
    byteLength before < (encodeText (before ++ c :: rest)).length := by
  have := Char.utf8Size_pos c
  rw [length_encodeText, byteLength_append, byteLength_cons]
  omega

theorem standsAt_end (kind : Char → Bool) (line : List Char) :
    standsAt kind (encodeText line) (byteLength line) = pure false := by
  rw [standsAt, if_neg (by simp)]

theorem standsAt_cons (hascii : ∀ c, kind c = true → c.toNat < 0x80) (before : List Char)
    (c : Char) (rest : List Char) :
    standsAt kind (encodeText (before ++ c :: rest)) (byteLength before) = pure (kind c) := by
  obtain ⟨byte, bytes, hbytes, hbyte⟩ := exists_head_utf8EncodeChar hascii c
  rw [standsAt, if_pos (byteLength_lt_of_cons before c rest), byteAt_append before hbytes,
    pure_bind, hbyte]

theorem digitsEnd_append (before text : List Char) :
    digitsEnd (encodeText (before ++ text)) (byteLength before) =
      pure (byteLength (before ++ text.takeWhile Char.isDigit)) := by
  induction text generalizing before with
  | nil => rw [digitsEnd, if_neg (by simp), List.takeWhile_nil, List.append_nil]
  | cons c rest ih =>
      obtain ⟨byte, bytes, hbytes, hbyte⟩ :=
        exists_head_utf8EncodeChar (fun _ => toNat_lt_of_isDigit) c
      rw [digitsEnd, if_pos (byteLength_lt_of_cons before c rest), byteAt_append before hbytes,
        pure_bind]
      by_cases hdigit : c.isDigit = true
      · have hnext : byteLength before + 1 = byteLength (before ++ [c]) := by
          simp [utf8Size_of_isDigit hdigit]
        rw [if_pos (hbyte.trans hdigit), hnext, List.append_cons, ih,
          List.takeWhile_cons_of_pos hdigit, ← List.append_cons]
      · rw [if_neg (hbyte ▸ hdigit), List.takeWhile_cons_of_neg hdigit, List.append_nil]

theorem scanSign_cons (c : Char) (rest : List Char) :
    scanSign (c :: rest) = if isSignChar c then (some c, rest) else (none, c :: rest) := by
  unfold scanSign
  split <;> simp_all [isSignChar]

theorem signEnd_append (before text : List Char) :
    signEnd (encodeText (before ++ text)) (byteLength before) =
      pure (byteLength (before ++ (scanSign text).1.toList)) := by
  cases text with
  | nil =>
      rw [List.append_nil, signEnd, standsAt_end, pure_bind]
      simp [scanSign]
  | cons c rest =>
      rw [signEnd, standsAt_cons (fun _ => toNat_lt_of_isSignChar), pure_bind, scanSign_cons]
      by_cases hsign : isSignChar c = true
      · simp [hsign, utf8Size_of_toNat_lt (toNat_lt_of_isSignChar hsign)]
      · simp [hsign]

theorem scanFraction_cons (c : Char) (rest : List Char) :
    scanFraction (c :: rest) =
      if c == '.' then (some (rest.takeWhile Char.isDigit), rest.dropWhile Char.isDigit)
      else (none, c :: rest) := by
  unfold scanFraction
  split <;> simp_all

theorem fractionEnd_append (before text : List Char) :
    fractionEnd (encodeText (before ++ text)) (byteLength before) =
      pure (byteLength (before ++ Numeral.fractionText (scanFraction text).1),
        ((scanFraction text).1.getD []).length) := by
  cases text with
  | nil =>
      rw [List.append_nil, fractionEnd, standsAt_end, pure_bind]
      simp [scanFraction, Numeral.fractionText]
  | cons c rest =>
      rw [fractionEnd, standsAt_cons (fun _ => toNat_lt_of_beq_point), pure_bind, scanFraction_cons]
      by_cases hpoint : (c == '.') = true
      · obtain rfl := beq_iff_eq.1 hpoint
        have hnext : byteLength before + 1 = byteLength (before ++ ['.']) := by
          rw [byteLength_append]
          rfl
        have hplaces : byteLength (before ++ ['.'] ++ rest.takeWhile Char.isDigit) -
            byteLength (before ++ ['.']) = (rest.takeWhile Char.isDigit).length := by
          rw [byteLength_append (before ++ ['.']), Nat.add_sub_cancel_left,
            byteLength_digits (allDigits_takeWhile rest)]
        rw [if_pos hpoint, if_pos hpoint, hnext, List.append_cons, digitsEnd_append, pure_bind,
          hplaces, List.append_assoc]
        rfl
      · rw [if_neg hpoint, if_neg hpoint, Numeral.fractionText, List.append_nil]
        rfl

theorem exponentEnd_append (before text : List Char) :
    exponentEnd (encodeText (before ++ text)) (byteLength before) =
      pure (byteLength (before ++ Numeral.exponentText (scanExponent text).1)) := by
  cases text with
  | nil =>
      rw [List.append_nil, exponentEnd, standsAt_end, pure_bind]
      simp [scanExponent, Numeral.exponentText]
  | cons mark rest =>
      have hkind : isExponentMark mark = true ↔ mark = 'E' ∨ mark = 'e' := by
        simp [isExponentMark]
      rw [exponentEnd, standsAt_cons (fun _ => toNat_lt_of_isExponentMark), pure_bind, scanExponent]
      by_cases hmark : isExponentMark mark = true
      · have hnext : byteLength before + 1 = byteLength (before ++ [mark]) := by
          simp [utf8Size_of_toNat_lt (toNat_lt_of_isExponentMark hmark)]
        have hline : before ++ mark :: rest =
            before ++ [mark] ++ (scanSign rest).1.toList ++ (scanSign rest).2 := by
          rw [List.append_assoc (before ++ [mark]), scanSign_text, ← List.append_cons]
        rw [if_pos hmark, if_pos (hkind.1 hmark), hnext, List.append_cons, signEnd_append,
          pure_bind, ← List.append_cons, hline, digitsEnd_append, pure_bind]
        cases hdigits : (scanSign rest).2.takeWhile Char.isDigit with
        | nil => simp [hdigits, Numeral.exponentText]
        | cons digit digits =>
            have hlonger : 0 < digit.utf8Size + byteLength digits :=
              Nat.add_pos_left (Char.utf8Size_pos digit) _
            simp [hdigits, Numeral.exponentText, NumeralExponent.text, hlonger]
      · rw [if_neg hmark, if_neg (mt hkind.2 hmark), Numeral.exponentText, List.append_nil]

/-! ## Within a character, or behind the line -/

theorem standsAt_within (kind : Char → Bool) (hwithin : suffixAt line position = none) :
    standsAt kind (encodeText line) position = pure false := by
  unfold standsAt
  split
  · next hinside =>
      have hbyte := List.getElem?_eq_getElem hinside
      rw [byteAt_of_getElem? hbyte, pure_bind,
        isByteOf_of_le (le_toNat_of_suffixAt_eq_none hwithin hbyte)]
  · rfl

theorem digitsEnd_within (hwithin : suffixAt line position = none) :
    digitsEnd (encodeText line) position = pure position := by
  rw [digitsEnd]
  split
  · next hinside =>
      have hbyte := List.getElem?_eq_getElem hinside
      rw [byteAt_of_getElem? hbyte, pure_bind, if_neg
        (Bool.eq_false_iff.1 (isByteOf_of_le (le_toNat_of_suffixAt_eq_none hwithin hbyte)))]
  · rfl

theorem numberEnd_within (hwithin : suffixAt line position = none) :
    numberEnd (encodeText line) position = pure none := by
  simp only [numberEnd, signEnd, fractionEnd, standsAt_within _ hwithin, digitsEnd_within hwithin,
    pure_bind, Bool.false_eq_true, if_false, Nat.sub_self, Nat.add_zero, if_true]

/-! ## Numbers and words -/

theorem numberEnd_append (before text : List Char) :
    numberEnd (encodeText (before ++ text)) (byteLength before) =
      pure ((scanNumeral text).map fun (numeral, _) => byteLength (before ++ numeral.text)) := by
  rcases hsign : scanSign text with ⟨sign, afterSign⟩
  rcases hfraction : scanFraction (afterSign.dropWhile Char.isDigit) with ⟨fraction, afterFraction⟩
  have hsignText : sign.toList ++ afterSign = text := by
    have htext := scanSign_text text
    rwa [hsign] at htext
  have hfractionText : Numeral.fractionText fraction ++ afterFraction =
      afterSign.dropWhile Char.isDigit := by
    have htext := scanFraction_text (afterSign.dropWhile Char.isDigit)
    rwa [hfraction] at htext
  let afterWhole := before ++ sign.toList ++ afterSign.takeWhile Char.isDigit
  have hline : before ++ text = before ++ sign.toList ++ afterSign := by
    rw [List.append_assoc, hsignText]
  have hlineWhole : before ++ text = afterWhole ++ afterSign.dropWhile Char.isDigit := by
    rw [hline, List.append_assoc _ (afterSign.takeWhile _), List.takeWhile_append_dropWhile]
  have hlineFraction : before ++ text =
      afterWhole ++ Numeral.fractionText fraction ++ afterFraction := by
    rw [hlineWhole, List.append_assoc afterWhole, hfractionText]
  have hsignEnd : signEnd (encodeText (before ++ text)) (byteLength before) =
      pure (byteLength (before ++ sign.toList)) := by
    rw [signEnd_append, hsign]
  have hwholeEnd : digitsEnd (encodeText (before ++ text)) (byteLength (before ++ sign.toList)) =
      pure (byteLength afterWhole) := by
    rw [hline, digitsEnd_append]
  have hfractionEnd : fractionEnd (encodeText (before ++ text)) (byteLength afterWhole) =
      pure (byteLength (afterWhole ++ Numeral.fractionText fraction),
        (fraction.getD []).length) := by
    rw [hlineWhole, fractionEnd_append, hfraction]
  have hexponentEnd : exponentEnd (encodeText (before ++ text))
      (byteLength (afterWhole ++ Numeral.fractionText fraction)) =
      pure (byteLength (afterWhole ++ Numeral.fractionText fraction ++
        Numeral.exponentText (scanExponent afterFraction).1)) := by
    rw [hlineFraction, exponentEnd_append]
  have hplaces : byteLength afterWhole - byteLength (before ++ sign.toList) =
      (afterSign.takeWhile Char.isDigit).length := by
    rw [byteLength_append (before ++ sign.toList), Nat.add_sub_cancel_left,
      byteLength_digits (allDigits_takeWhile afterSign)]
  simp only [numberEnd, hsignEnd, hwholeEnd, hfractionEnd, hexponentEnd, pure_bind, hplaces]
  simp only [scanNumeral, hsign, hfraction, ← List.length_append, List.length_eq_zero_iff,
    List.isEmpty_iff]
  split
  · rfl
  · simp [Numeral.text, afterWhole]

theorem cut_append (before text rest : List Char) :
    cut (before ++ (text ++ rest)) (byteLength before) (byteLength (before ++ text)) =
      pure text := by
  have hstop : suffixAt (before ++ (text ++ rest)) (byteLength (before ++ text)) = some rest := by
    rw [← List.append_assoc, suffixAt_append]
  rw [cut, suffixAt_append, hstop]
  simp

variable {parse : List Char → Option Float}

theorem numberAt_eq (hparse : ReadsNumerals parse) (line : List Char) (start : Nat) :
    numberAt parse line start =
      pure ((Gcode.numberAt line start).mapError fun _ => .noDigit) := by
  cases hsuffix : suffixAt line start with
  | none =>
      rw [numberAt, numberEnd_within hsuffix, pure_bind, Gcode.numberAt, hsuffix]
      rfl
  | some text =>
      obtain ⟨before, rfl, rfl⟩ := suffixAt_eq_some_iff.1 hsuffix
      rw [numberAt, numberEnd_append, pure_bind, Gcode.numberAt, hsuffix, Option.bind_some]
      cases hscan : scanNumeral text with
      | none => rfl
      | some read =>
          obtain ⟨numeral, rest⟩ := read
          have hwell := (scanNumeral_wellFormed hscan).1
          have htext := scanNumeral_text hscan
          rw [htext]
          simp only [Option.map_some, cut_append, pure_bind, hparse numeral hwell]
          rw [byteLength_append, byteLength_numeral hwell]
          rfl

theorem suffixAt_of_isCommandLetter {cursor : Nat} {letter : Char} {rest : List Char}
    (hsuffix : suffixAt line cursor = some (letter :: rest))
    (hletter : isCommandLetter letter = true) : suffixAt line (cursor + 1) = some rest := by
  obtain ⟨before, rfl, rfl⟩ := suffixAt_eq_some_iff.1 hsuffix
  have hnext : byteLength (before ++ [letter]) = byteLength before + 1 := by
    simp [utf8Size_of_isCommandLetter hletter]
  rw [← hnext, List.append_cons, suffixAt_append]

theorem wordAt_eq (hparse : ReadsNumerals parse) (line : List Char) (cursor : Nat) :
    wordAt parse line cursor =
      pure ((Gcode.wordAt line cursor).map
        (Option.map fun placed => (placed.word, placed.stop))) := by
  cases hsuffix : suffixAt line cursor with
  | none =>
      rw [wordAt, Gcode.wordAt, hsuffix]
      rfl
  | some text =>
      cases text with
      | nil =>
          rw [wordAt, Gcode.wordAt, hsuffix]
          rfl
      | cons letter rest =>
          simp only [wordAt, Gcode.wordAt, hsuffix, Option.bind_some, List.head?_cons, scanWord]
          by_cases hletter : isCommandLetter letter = true
          · have hnext := suffixAt_of_isCommandLetter hsuffix hletter
            rw [if_pos hletter, if_pos hletter, numberAt_eq hparse, pure_bind, Gcode.numberAt,
              hnext, Option.bind_some]
            cases scanNumeral rest with
            | none => rfl
            | some read => rfl
          · rw [if_neg hletter, if_neg hletter]
            rfl

end Checked

end Gcode
