import Gcode.Decimal.Layout
import Gcode.Document.Basic
import Gcode.Document.TomlString
import Gcode.Document.TomlTree

/-!
# Values in TOML

Numbers, dates, strings, arrays and inline tables.  Digits may be grouped with single underscores,
whole numbers have 64 bits, and a positive number beyond all doubles is refused.  Commas, comments
and line ends stand between the items of an array, and there may be a comma behind the last one.
-/

namespace Gcode.Toml

/-! ## Numbers -/

def scanGroups (isDigit : Char → Bool) : List Char → List Char × List Char
  | '_' :: c :: rest =>
    if isDigit c then
      let (digits, rest) := scanGroups isDigit rest
      (c :: digits, rest)
    else ([], '_' :: c :: rest)
  | c :: rest =>
    if isDigit c then
      let (digits, rest) := scanGroups isDigit rest
      (c :: digits, rest)
    else ([], c :: rest)
  | [] => ([], [])

def scanDigits (isDigit : Char → Bool) : List Char → Option (List Char × List Char)
  | c :: rest =>
    if isDigit c then
      let (digits, rest) := scanGroups isDigit rest
      some (c :: digits, rest)
    else none
  | [] => none

def scanWhole : List Char → Option (List Char × List Char)
  | '0' :: rest => some (['0'], rest)
  | text => scanDigits Char.isDigit text

def boundedInteger? (negative : Bool) (magnitude : Nat) : Option Document :=
  if negative then if magnitude ≤ 0x8000000000000000 then some (.integer (-magnitude)) else none
  else if magnitude < 0x8000000000000000 then some (.integer magnitude)
  else none

def scanBased (base : Nat) (isDigit : Char → Bool) (text : List Char) :
    Option (Document × List Char) := do
  let (digits, rest) ← scanDigits isDigit text
  let magnitude := digits.foldl (fun value digit => base * value + (hexValue? digit).getD 0) 0
  let value ← boundedInteger? false magnitude
  pure (value, rest)

def scanExponent : List Char → Option (Option NumeralExponent × List Char)
  | mark :: rest =>
    if mark = 'e' || mark = 'E' then do
      let (sign, rest) := scanSign rest
      let (digits, rest) ← scanDigits Char.isDigit rest
      pure (some ⟨mark, sign, digits⟩, rest)
    else some (none, mark :: rest)
  | [] => some (none, [])

def scanDecimal (text : List Char) : Option (Document × List Char) := do
  let (sign, rest) := scanSign text
  let (whole, rest) ← scanWhole rest
  let (fraction, rest) ←
    match rest with
    | '.' :: rest => (scanDigits Char.isDigit rest).map fun (digits, rest) => (some digits, rest)
    | rest => some (none, rest)
  let (exponent, rest) ← scanExponent rest
  let numeral : Numeral := ⟨sign, whole, fraction, exponent⟩
  if fraction.isNone && exponent.isNone then
    let value ← boundedInteger? numeral.negative (digitsValue whole)
    pure (value, rest)
  else if numeral.value == infinity then none
  else pure (.float numeral.value, rest)

def scanSpecial (text : List Char) : Option (Document × List Char) :=
  let (sign, rest) := scanSign text
  match rest with
  | 'i' :: 'n' :: 'f' :: rest =>
    some (.float (if sign = some '-' then -infinity else infinity), rest)
  | 'n' :: 'a' :: 'n' :: rest => some (.float (0 / 0), rest)
  | _ => none

/-! ## Dates and times -/

def scanField (width low high : Nat) (text : List Char) : Option (Nat × List Char) :=
  let digits := text.take width
  if digits.length = width && digits.all Char.isDigit then
    let value := digitsValue digits
    if low ≤ value && value ≤ high then some (value, text.drop width) else none
  else none

def scanChar (c : Char) : List Char → Option (List Char)
  | next :: rest => if next = c then some rest else none
  | [] => none

def daysInMonth (year month : Nat) : Nat :=
  if month = 2 then
    if (year % 4 = 0 && year % 100 != 0) || year % 400 = 0 then 29 else 28
  else if [4, 6, 9, 11].contains month then 30
  else 31

def scanDate (text : List Char) : Option (List Char) := do
  let (year, rest) ← scanField 4 0 9999 text
  let (month, rest) ← scanField 2 1 12 (← scanChar '-' rest)
  let (_, rest) ← scanField 2 1 (daysInMonth year month) (← scanChar '-' rest)
  pure rest

def scanTime (text : List Char) : Option (List Char) := do
  let (_, rest) ← scanField 2 0 23 text
  let (_, rest) ← scanField 2 0 59 (← scanChar ':' rest)
  let (_, rest) ← scanField 2 0 60 (← scanChar ':' rest)
  match rest with
  | '.' :: fraction =>
    let digits := fraction.takeWhile Char.isDigit
    pure (if digits = [] then rest else fraction.drop digits.length)
  | _ => pure rest

def scanOffset : List Char → Option (List Char)
  | 'Z' :: rest => some rest
  | 'z' :: rest => some rest
  | sign :: rest =>
    if sign = '+' || sign = '-' then do
      let (_, rest) ← scanField 2 0 23 rest
      let (_, rest) ← scanField 2 0 59 (← scanChar ':' rest)
      pure rest
    else none
  | [] => none

def scanMoment (text : List Char) : Option (Document × List Char) :=
  match scanDate text with
  | none => (scanTime text).map (.moment, ·)
  | some rest =>
    match rest with
    | [] => some (.moment, rest)
    | c :: time =>
      if c = 'T' || c = 't' || c = ' ' then
        match scanTime time with
        | some rest => some (.moment, (scanOffset rest).getD rest)
        | none => some (.moment, rest)
      else some (.moment, rest)

def scanNumber (text : List Char) : Option (Document × List Char) :=
  match text with
  | '0' :: 'x' :: rest => scanBased 16 (fun c => (hexValue? c).isSome) rest
  | '0' :: 'o' :: rest => scanBased 8 (fun c => '0' ≤ c && c ≤ '7') rest
  | '0' :: 'b' :: rest => scanBased 2 (fun c => c == '0' || c == '1') rest
  | text => ((scanMoment text).or (scanSpecial text)).or (scanDecimal text)

/-! ## Keys -/

def isBareKeyChar (c : Char) : Bool := c.isAlphanum || c == '_' || c == '-'

def scanSimpleKey : List Char → Option (List Char × List Char)
  | '"' :: rest => scanBasic (rest.length + 1) rest
  | '\'' :: rest => scanLiteral rest
  | text =>
    let key := text.takeWhile isBareKeyChar
    if key = [] then none else some (key, text.drop key.length)

/-- How many keys may be joined by points, and how deep arrays and inline tables may be nested. -/
def maxDepth : Nat := 79

/-- Reads keys joined by points, at most as many as given: the path before the last one, and the
last one. -/
def scanKeyOf : Nat → List Char → Option ((List (List Char) × List Char) × List Char)
  | 0, _ => none
  | keys + 1, text => do
    let (key, rest) ← scanSimpleKey (skipSpace text)
    let rest := skipSpace rest
    match rest with
    | '.' :: rest =>
      let ((path, last), rest) ← scanKeyOf keys rest
      pure ((key :: path, last), rest)
    | rest => pure (([], key), rest)

def scanKey (text : List Char) : Option ((List (List Char) × List Char) × List Char) :=
  scanKeyOf maxDepth text

/-! ## Lines -/

def skipComment (text : List Char) : Option (List Char) :=
  match text with
  | '#' :: rest =>
    let rest := rest.dropWhile isPlain
    if rest = [] || (scanNewline? rest).isSome then some rest else none
  | text => some text

def skipBetween : Nat → List Char → Option (List Char)
  | 0, _ => none
  | steps + 1, text => do
    let rest ← skipComment (skipSpace text)
    match scanNewline? rest with
    | some rest => skipBetween steps rest
    | none => pure rest

/-! ## Values -/

mutual

/-- Reads a value.  The first argument bounds the number of steps, the second the nesting. -/
def scanValue : Nat → Nat → List Char → Option (Document × List Char)
  | 0, _, _ => none
  | steps + 1, nesting, text =>
    match text with
    | '"' :: _ => (scanString text).map fun (text, rest) => (.text text, rest)
    | '\'' :: _ => (scanString text).map fun (text, rest) => (.text text, rest)
    | 't' :: 'r' :: 'u' :: 'e' :: rest => some (.boolean true, rest)
    | 'f' :: 'a' :: 'l' :: 's' :: 'e' :: rest => some (.boolean false, rest)
    | '[' :: rest =>
      match nesting with
      | 0 => none
      | nesting + 1 => (scanItems steps nesting rest).map fun (items, rest) => (.list items, rest)
    | '\x7b' :: rest =>
      match nesting with
      | 0 => none
      | nesting + 1 =>
        match skipSpace rest with
        | '\x7d' :: rest => some (.table [], rest)
        | rest =>
          (scanPairs steps nesting [] rest).map fun (items, rest) => (Items.document items, rest)
    | text => scanNumber text

def scanItems : Nat → Nat → List Char → Option (List Document × List Char)
  | 0, _, _ => none
  | steps + 1, nesting, text =>
    match skipBetween (text.length + 1) text with
    | none => none
    | some (']' :: rest) => some ([], rest)
    | some text =>
      match scanValue steps nesting text with
      | none => none
      | some (item, rest) =>
        match skipBetween (rest.length + 1) rest with
        | some (']' :: rest) => some ([item], rest)
        | some (',' :: rest) =>
          (scanItems steps nesting rest).map fun (items, rest) => (item :: items, rest)
        | _ => none

def scanPairs : Nat → Nat → Items → List Char → Option (Items × List Char)
  | 0, _, _, _ => none
  | steps + 1, nesting, items, text =>
    match scanKey text with
    | some ((path, key), '=' :: rest) =>
      match scanValue steps nesting (skipSpace rest) with
      | none => none
      | some (value, rest) =>
        match Items.insert true path key value items with
        | none => none
        | some items =>
          match skipSpace rest with
          | '\x7d' :: rest => some (items, rest)
          | ',' :: rest => scanPairs steps nesting items rest
          | _ => none
    | _ => none

end

end Gcode.Toml
