import Gcode.Document.TomlValue

/-!
# TOML

`Toml.read?` reads a TOML text into a document and `Toml.write` writes one: first the plain
entries of a table, then the tables in it under headers of their own.  Arrays take a line for each
item, and a missing value takes none.
-/

namespace Gcode.Toml

/-! ## Reading -/

/-- A text half read: the entries so far, and the table that entries are added to. -/
structure Progress where
  items : Items
  current : List (List Char)

def scanLineEnd (text : List Char) : Option (List Char) := do
  let rest ← skipComment (skipSpace text)
  match rest with
  | [] => pure []
  | rest => scanNewline? rest

def scanLine (progress : Progress) (text : List Char) : Option (Progress × List Char) :=
  match text with
  | '[' :: '[' :: rest =>
    match scanKey rest with
    | some ((path, key), ']' :: ']' :: rest) => do
      let items ← progress.items.openElement path key
      pure (⟨items, path ++ [key]⟩, ← scanLineEnd rest)
    | _ => none
  | '[' :: rest =>
    match scanKey rest with
    | some ((path, key), ']' :: rest) => do
      let items ← progress.items.openTable path key
      pure (⟨items, path ++ [key]⟩, ← scanLineEnd rest)
    | _ => none
  | text =>
    match scanKey text with
    | some ((path, key), '=' :: rest) => do
      let (value, rest) ← scanValue (2 * rest.length + 2) maxDepth (skipSpace rest)
      let items ← Items.changeAt (Items.insert true path key value) progress.current progress.items
      pure (⟨items, progress.current⟩, ← scanLineEnd rest)
    | _ => none

/-- Reads lines up to the end of the text.  Each takes a character, so as many steps suffice. -/
def scanLines : Nat → Progress → List Char → Option Items
  | 0, _, _ => none
  | steps + 1, progress, text =>
    match skipSpace text with
    | [] => some progress.items
    | rest =>
      match skipComment rest with
      | none => none
      | some [] => some progress.items
      | some rest =>
        match scanNewline? rest with
        | some rest => scanLines steps progress rest
        | none =>
          match scanLine progress rest with
          | some (progress, rest) => scanLines steps progress rest
          | none => none

def read? (text : List Char) : Option Document :=
  let body :=
    match text with
    | '\ufeff' :: rest => rest
    | text => text
  (scanLines (body.length + 1) ⟨[], []⟩ body).map Items.document

/-! ## Writing -/

def layout : Layout :=
  { positional := fun _ => true
    wholeFraction := some ['0']
    plusExponent := false
    tie := .up
    nan := "nan"
    infinite := "inf"
    negativeInfinite := "-inf" }

def writeKey (key : List Char) : List Char :=
  if key != [] && key.all isBareKeyChar then key else writeString key

mutual

def writeValue (depth : Nat) : Document → List Char
  | .null => ['"', '"']
  | .boolean true => ['t', 'r', 'u', 'e']
  | .boolean false => ['f', 'a', 'l', 's', 'e']
  | .integer value => (if value < 0 then ['-'] else []) ++ Nat.toDigits 10 value.natAbs
  | .float value => (layout.text value).toList
  | .text value => writeString value
  | .list [] => ['[', ']']
  | .list items =>
    ['['] ++ writeItems (depth + 1) items ++ '\n' :: List.replicate (4 * depth) ' ' ++ [']']
  | .table entries => ['\x7b', ' '] ++ writePairs depth entries ++ ['\x7d']
  | .moment | .unreadable => ['"', '"']

def writeItems (depth : Nat) : List Document → List Char
  | [] => []
  | item :: items =>
    '\n' :: List.replicate (4 * depth) ' ' ++ writeValue depth item ++ [','] ++
      writeItems depth items

def writePairs (depth : Nat) : List (List Char × Document) → List Char
  | [] => []
  | [(key, value)] => writeKey key ++ [' ', '=', ' '] ++ writeValue depth value ++ [' ']
  | (key, value) :: entries =>
    writeKey key ++ [' ', '=', ' '] ++ writeValue depth value ++ [',', ' '] ++
      writePairs depth entries

end

def isTable : Document → Bool
  | .table _ => true
  | _ => false

def writeEntry (entry : List Char × Document) : List Char :=
  match entry.2 with
  | .null => []
  | value => writeKey entry.1 ++ [' ', '=', ' '] ++ writeValue 0 value ++ ['\n']

def writePlain (entries : List (List Char × Document)) : List Char :=
  (entries.filter fun entry => !isTable entry.2).flatMap writeEntry

def writeHeader (path : List (List Char)) : List Char :=
  ['['] ++ List.intercalate ['.'] (path.map writeKey) ++ [']', '\n']

mutual

/-- Writes the tables among the entries of the table at a path.  A blank line stands before each
header, except at the start of the text. -/
def writeTables (path : List (List Char)) :
    (atStart : Bool) → List (List Char × Document) → List Char
  | _, [] => []
  | atStart, (key, value) :: entries =>
    writeTable (path ++ [key]) atStart value ++ writeTables path (atStart && !isTable value) entries

def writeTable (path : List (List Char)) (atStart : Bool) : Document → List Char
  | .table entries =>
    (if atStart then [] else ['\n']) ++ writeHeader path ++ writePlain entries ++
      writeTables path false entries
  | _ => []

end

def write (document : Document) : List Char :=
  match document with
  | .table entries =>
    let plain := writePlain entries
    plain ++ writeTables [] plain.isEmpty entries
  | document => writeValue 0 document

end Gcode.Toml
