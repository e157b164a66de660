/-!
# Documents

A `Document` is the value that a JSON or TOML text stands for.  Tables keep their entries in the
order of the text, and duplicate keys too, so a reader of a table decides what they mean.

`unreadable` stands for a part of a text that is well formed but has no value: a string that no
text can hold, or a number beyond all doubles.  It only matters to those who look at that part.
-/

namespace Gcode

inductive Document where
  | null
  | boolean (value : Bool)
  | integer (value : Int)
  | float (value : Float)
  | text (value : List Char)
  /-- A date or a time, which no setting uses. -/
  | moment
  | list (items : List Document)
  | table (entries : List (List Char × Document))
  | unreadable
  deriving Repr, Inhabited

namespace Document

/-! ## Whole trees -/

mutual

def depth : Document → Nat
  | list items => depthItems items + 1
  | table entries => depthEntries entries + 1
  | _ => 0

def depthItems : List Document → Nat
  | [] => 0
  | item :: items => max item.depth (depthItems items)

def depthEntries : List (List Char × Document) → Nat
  | [] => 0
  | (_, value) :: entries => max value.depth (depthEntries entries)

end

mutual

def isReadable : Document → Bool
  | unreadable => false
  | list items => areReadable items
  | table entries => areReadableEntries entries
  | _ => true

def areReadable : List Document → Bool
  | [] => true
  | item :: items => item.isReadable && areReadable items

def areReadableEntries : List (List Char × Document) → Bool
  | [] => true
  | (_, value) :: entries => value.isReadable && areReadableEntries entries

end

def insertSorted (key : List Char) (value : Document) :
    List (List Char × Document) → List (List Char × Document)
  | [] => [(key, value)]
  | (next, other) :: entries =>
    if key ≤ next then (key, value) :: (next, other) :: entries
    else (next, other) :: insertSorted key value entries

mutual

def sortKeys : Document → Document
  | list items => list (sortItems items)
  | table entries => table (sortEntries entries)
  | document => document

def sortItems : List Document → List Document
  | [] => []
  | item :: items => item.sortKeys :: sortItems items

def sortEntries : List (List Char × Document) → List (List Char × Document)
  | [] => []
  | (key, value) :: entries => insertSorted key value.sortKeys (sortEntries entries)

end

/-! ## Building -/

def record (entries : List (String × Document)) : Document :=
  table (entries.map fun (key, value) => (key.toList, value))

def word (value : String) : Document := text value.toList

/-! ## Looking into -/

/-- Whether a list may be longer than what is read from it. -/
inductive Surplus where
  | refused
  | ignored
  deriving DecidableEq, Repr

def entry? (entries : List (List Char × Document)) (key : List Char) :
    Option (Option Document) :=
  match entries.filter (·.1 == key) with
  | [] => some none
  | [(_, value)] => some (some value)
  | _ => none

/-- The values of named fields.  A table has them under their names, in any order and among other
entries; a list has them in the given order, and its last ones may be missing. -/
def fields? (surplus : Surplus) (names : List String) : Document → Option (List (Option Document))
  | table entries => names.mapM fun name => entry? entries name.toList
  | list items =>
    if surplus = .refused && names.length < items.length then none
    else some ((List.range names.length).map fun position => items[position]?)
  | _ => none

def float? : Document → Option Float
  | integer value => some (Float.ofInt value)
  | float value => some value
  | _ => none

def text? : Document → Option (List Char)
  | text value => some value
  | _ => none

end Document

end Gcode
