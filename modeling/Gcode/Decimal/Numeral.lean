import Gcode.Decimal.Digits

/-!
# Numerals

A `Numeral` is the text of a decimal number cut into its parts: `-12.50e+3` has the sign `-`, the
whole digits `12`, the fraction digits `50` and the exponent `e+3`.  Nothing of the text is lost, so
`Numeral.text` writes it back, and `Numeral.value` is the double it stands for.

`scanNumeral` reads the longest number at the start of a text, and `Numeral.WellFormed` says which
numerals are numbers: digits only where digits belong, and at least one of them around the point.
-/

namespace Gcode

structure NumeralExponent where
  mark : Char
  sign : Option Char
  digits : List Char
  deriving DecidableEq, Repr

structure Numeral where
  sign : Option Char
  whole : List Char
  fraction : Option (List Char)
  exponent : Option NumeralExponent
  deriving DecidableEq, Repr

def digitsValue (digits : List Char) : Nat :=
  digits.foldl (fun value digit => 10 * value + (digit.toNat - '0'.toNat)) 0

namespace NumeralExponent

def text (exponent : NumeralExponent) : List Char :=
  exponent.mark :: (exponent.sign.toList ++ exponent.digits)

def value (exponent : NumeralExponent) : Int :=
  if exponent.sign = some '-' then -digitsValue exponent.digits else digitsValue exponent.digits

end NumeralExponent

namespace Numeral

def fractionText : Option (List Char) → List Char
  | none => []
  | some digits => '.' :: digits

def exponentText : Option NumeralExponent → List Char
  | none => []
  | some exponent => exponent.text

def text (numeral : Numeral) : List Char :=
  numeral.sign.toList ++
    (numeral.whole ++ (fractionText numeral.fraction ++ exponentText numeral.exponent))

def negative (numeral : Numeral) : Bool :=
  numeral.sign == some '-'

def digits (numeral : Numeral) : List Char :=
  numeral.whole ++ numeral.fraction.getD []

def scale (numeral : Numeral) : Int :=
  (numeral.exponent.elim 0 NumeralExponent.value) - (numeral.fraction.getD []).length

/-- The double nearest to the number, halves to even.  The sign of a zero is kept. -/
def value (numeral : Numeral) : Float :=
  let magnitude := Decimal.toFloat ⟨digitsValue numeral.digits, numeral.scale⟩
  if numeral.negative then -magnitude else magnitude

/-! ## Grammar -/

def IsSign (sign : Char) : Prop := sign = '+' ∨ sign = '-'

def AllDigits (digits : List Char) : Prop := ∀ digit ∈ digits, digit.isDigit = true

/-- The numerals that are numbers: an optional sign, digits with an optional point among, before or
after them, and an optional exponent, which has digits of its own. -/
structure WellFormed (numeral : Numeral) : Prop where
  sign : ∀ sign, numeral.sign = some sign → IsSign sign
  whole : AllDigits numeral.whole
  fraction : ∀ digits, numeral.fraction = some digits → AllDigits digits
  digits : numeral.digits ≠ []
  exponent : ∀ exponent, numeral.exponent = some exponent →
    (exponent.mark = 'E' ∨ exponent.mark = 'e') ∧
      (∀ sign, exponent.sign = some sign → IsSign sign) ∧
      AllDigits exponent.digits ∧ exponent.digits ≠ []

end Numeral

/-! ## Scanning -/

def scanSign : List Char → Option Char × List Char
  | '+' :: rest => (some '+', rest)
  | '-' :: rest => (some '-', rest)
  | rest => (none, rest)

def scanFraction : List Char → Option (List Char) × List Char
  | '.' :: rest => (some (rest.takeWhile Char.isDigit), rest.dropWhile Char.isDigit)
  | rest => (none, rest)

def scanExponent : List Char → Option NumeralExponent × List Char
  | [] => (none, [])
  | mark :: rest =>
    if mark = 'E' ∨ mark = 'e' then
      let (sign, afterSign) := scanSign rest
      match afterSign.takeWhile Char.isDigit with
      | [] => (none, mark :: rest)
      | digit :: digits =>
        (some ⟨mark, sign, digit :: digits⟩, afterSign.dropWhile Char.isDigit)
    else (none, mark :: rest)

/-- The longest number at the start of the text and what follows it; nothing if the text does not
start with a number. -/
def scanNumeral (text : List Char) : Option (Numeral × List Char) :=
  let (sign, afterSign) := scanSign text
  let whole := afterSign.takeWhile Char.isDigit
  let (fraction, afterFraction) := scanFraction (afterSign.dropWhile Char.isDigit)
  if (whole ++ fraction.getD []).isEmpty then none
  else
    let (exponent, rest) := scanExponent afterFraction
    some (⟨sign, whole, fraction, exponent⟩, rest)

/-! ## Nothing of the text is lost -/

theorem scanSign_text (text : List Char) :
    (scanSign text).1.toList ++ (scanSign text).2 = text := by
  unfold scanSign
  split <;> rfl

theorem scanFraction_text (text : List Char) :
    Numeral.fractionText (scanFraction text).1 ++ (scanFraction text).2 = text := by
  unfold scanFraction
  split
  · simp [Numeral.fractionText]
  · rfl

theorem scanExponent_text (text : List Char) :
    Numeral.exponentText (scanExponent text).1 ++ (scanExponent text).2 = text := by
  cases text with
  | nil => rfl
  | cons mark rest =>
    simp only [scanExponent]
    split
    · split
      · rfl
      · next digit digits found =>
        have cut := List.takeWhile_append_dropWhile (p := Char.isDigit) (l := (scanSign rest).2)
        rw [found] at cut
        have whole := scanSign_text rest
        rw [← cut] at whole
        simpa [Numeral.exponentText, NumeralExponent.text] using whole
    · rfl

theorem scanNumeral_text {text rest : List Char} {numeral : Numeral}
    (scanned : scanNumeral text = some (numeral, rest)) : text = numeral.text ++ rest := by
  simp only [scanNumeral] at scanned
  split at scanned
  · exact absurd scanned (by simp)
  · obtain ⟨rfl, rfl⟩ := Prod.mk.inj (Option.some.inj scanned)
    have sign := scanSign_text text
    have whole := List.takeWhile_append_dropWhile (p := Char.isDigit) (l := (scanSign text).2)
    have fraction := scanFraction_text ((scanSign text).2.dropWhile Char.isDigit)
    have exponent := scanExponent_text (scanFraction ((scanSign text).2.dropWhile Char.isDigit)).2
    simp only [Numeral.text, List.append_assoc]
    rw [exponent, fraction, whole, sign]

theorem scanNumeral_length {text rest : List Char} {numeral : Numeral}
    (scanned : scanNumeral text = some (numeral, rest)) : rest.length < text.length := by
  have cut := scanNumeral_text scanned
  simp only [scanNumeral] at scanned
  split at scanned
  · exact absurd scanned (by simp)
  · next nonempty =>
    obtain ⟨rfl, rfl⟩ := Prod.mk.inj (Option.some.inj scanned)
    have lengths := congrArg List.length cut
    simp only [Numeral.text, List.length_append] at lengths
    have positive : 0 < ((scanSign text).2.takeWhile Char.isDigit).length +
        (Numeral.fractionText
          (scanFraction ((scanSign text).2.dropWhile Char.isDigit)).1).length := by
      cases found : (scanFraction ((scanSign text).2.dropWhile Char.isDigit)).1 with
      | none =>
        rw [found] at nonempty
        have : (scanSign text).2.takeWhile Char.isDigit ≠ [] := by simpa using nonempty
        exact Nat.add_pos_left (List.length_pos_iff.2 this) _
      | some digits => exact Nat.add_pos_right _ (by simp [Numeral.fractionText])
    omega

end Gcode
