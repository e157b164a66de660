import Gcode.Document.Basic
import Gcode.Document.JsonNumber
import Gcode.Document.JsonString

/-!
# JSON

`Json.read?` reads a JSON text into a document and `Json.write` writes one, either on one line or
indented by two spaces.  A double that is no number is written as `null`.
-/

namespace Gcode.Json

/-! ## Reading -/

def isBlank (c : Char) : Bool := c == ' ' || c == '\t' || c == '\n' || c == '\r'

def skipBlank (text : List Char) : List Char := text.dropWhile isBlank

def numberDocument (numeral : Numeral) : Document :=
  match integerValue? numeral with
  | some value => .integer value
  | none =>
    match floatValue? numeral with
    | some value => .float value
    | none => .unreadable

def stringDocument (units : List StringUnit) : Document :=
  match decodeUnits units with
  | some text => .text text
  | none => .unreadable

def objectDocument (entries : List (List StringUnit × Document)) : Document :=
  match entries.mapM fun (key, value) => (decodeUnits key).map (·, value) with
  | some entries => .table entries
  | none => .unreadable

mutual

def scanValue : Nat → List Char → Option (Document × List Char)
  | 0, _ => none
  | steps + 1, text =>
    match skipBlank text with
    | 'n' :: 'u' :: 'l' :: 'l' :: rest => some (.null, rest)
    | 't' :: 'r' :: 'u' :: 'e' :: rest => some (.boolean true, rest)
    | 'f' :: 'a' :: 'l' :: 's' :: 'e' :: rest => some (.boolean false, rest)
    | '"' :: rest => (scanString rest).map fun (units, rest) => (stringDocument units, rest)
    | '[' :: rest =>
      match skipBlank rest with
      | ']' :: rest => some (.list [], rest)
      | _ => (scanItems steps rest).map fun (items, rest) => (.list items, rest)
    | '\x7b' :: rest =>
      match skipBlank rest with
      | '\x7d' :: rest => some (.table [], rest)
      | _ => (scanMembers steps rest).map fun (entries, rest) => (objectDocument entries, rest)
    | text =>
      match scanNumeral text with
      | some (numeral, rest) =>
        if isNumber numeral then some (numberDocument numeral, rest) else none
      | none => none

def scanItems : Nat → List Char → Option (List Document × List Char)
  | 0, _ => none
  | steps + 1, text =>
    match scanValue steps text with
    | none => none
    | some (item, rest) =>
      match skipBlank rest with
      | ']' :: rest => some ([item], rest)
      | ',' :: rest => (scanItems steps rest).map fun (items, rest) => (item :: items, rest)
      | _ => none

def scanMembers : Nat → List Char → Option (List (List StringUnit × Document) × List Char)
  | 0, _ => none
  | steps + 1, text =>
    match skipBlank text with
    | '"' :: rest =>
      match scanString rest with
      | none => none
      | some (key, rest) =>
        match skipBlank rest with
        | ':' :: rest =>
          match scanValue steps rest with
          | none => none
          | some (value, rest) =>
            match skipBlank rest with
            | '\x7d' :: rest => some ([(key, value)], rest)
            | ',' :: rest =>
              (scanMembers steps rest).map fun (entries, rest) => ((key, value) :: entries, rest)
            | _ => none
        | _ => none
    | _ => none

end

/-- Reads a whole text.  Every second step takes a character, so the steps suffice. -/
def read? (text : List Char) : Option Document :=
  match scanValue (2 * text.length + 2) text with
  | some (document, rest) => if skipBlank rest = [] then some document else none
  | none => none

/-! ## Writing -/

inductive Style where
  | compact
  | indented
  deriving DecidableEq, Repr

def Style.break (style : Style) (depth : Nat) : List Char :=
  match style with
  | .compact => []
  | .indented => '\n' :: List.replicate (2 * depth) ' '

def Style.colon : Style → List Char
  | .compact => [':']
  | .indented => [':', ' ']

def writeInteger (value : Int) : List Char :=
  (if value < 0 then ['-'] else []) ++ Nat.toDigits 10 value.natAbs

mutual

def writeAt (style : Style) (depth : Nat) : Document → List Char
  | .null => ['n', 'u', 'l', 'l']
  | .boolean true => ['t', 'r', 'u', 'e']
  | .boolean false => ['f', 'a', 'l', 's', 'e']
  | .integer value => writeInteger value
  | .float value => (layout.text value).toList
  | .text value => writeString value
  | .list [] => ['[', ']']
  | .list (item :: items) =>
    ['['] ++ style.break (depth + 1) ++ writeAt style (depth + 1) item ++
      writeItems style (depth + 1) items ++ style.break depth ++ [']']
  | .table [] => ['\x7b', '\x7d']
  | .table ((key, value) :: entries) =>
    ['\x7b'] ++ style.break (depth + 1) ++ writeString key ++ style.colon ++
      writeAt style (depth + 1) value ++ writeEntries style (depth + 1) entries ++
        style.break depth ++ ['\x7d']
  | .moment | .unreadable => ['n', 'u', 'l', 'l']

def writeItems (style : Style) (depth : Nat) : List Document → List Char
  | [] => []
  | item :: items =>
    [','] ++ style.break depth ++ writeAt style depth item ++ writeItems style depth items

def writeEntries (style : Style) (depth : Nat) : List (List Char × Document) → List Char
  | [] => []
  | (key, value) :: entries =>
    [','] ++ style.break depth ++ writeString key ++ style.colon ++ writeAt style depth value ++
      writeEntries style depth entries

end

def write (style : Style) (document : Document) : List Char := writeAt style 0 document

end Gcode.Json
