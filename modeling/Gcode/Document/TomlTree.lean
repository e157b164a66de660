import Gcode.Document.Basic

/-!
# The tables of a TOML text

A TOML text fills its tables line by line, and a table may be opened in three ways: by its own
header, by the header of a table in it, or by a dotted key.  How it was opened decides who may add
to it later, so `Items` remembers it until the text is complete.
-/

namespace Gcode.Toml

inductive Opening where
  | header
  | implied
  | dotted
  deriving DecidableEq, Repr

inductive Item where
  | value (document : Document)
  | table (opening : Opening) (items : List (List Char × Item))
  | tables (elements : List (List (List Char × Item)))

abbrev Items := List (List Char × Item)

mutual

def Item.document : Item → Document
  | .value document => document
  | .table _ items => .table (Items.entries items)
  | .tables elements => .list (Items.elements elements)

def Items.entries : List (List Char × Item) → List (List Char × Document)
  | [] => []
  | (key, item) :: items => (key, item.document) :: Items.entries items

def Items.elements : List (List (List Char × Item)) → List Document
  | [] => []
  | items :: elements => .table (Items.entries items) :: Items.elements elements

end

namespace Items

def document (items : Items) : Document := .table (entries items)

def put (items : Items) (key : List Char) (item : Item) : Items :=
  match items with
  | [] => [(key, item)]
  | (next, other) :: items =>
    if next = key then (key, item) :: items else (next, other) :: put items key item

def changeLast (change : Items → Option Items) : List Items → Option (List Items)
  | [] => none
  | [last] => (change last).map ([·])
  | element :: elements => (changeLast change elements).map (element :: ·)

/-- Changes the table at a path of headers, opening the tables on the way.  An array of tables
stands for its last one. -/
def changeAt (change : Items → Option Items) : List (List Char) → Items → Option Items
  | [], items => change items
  | key :: path, items =>
    match items.lookup key with
    | none => (changeAt change path []).map fun inner => items.put key (.table .implied inner)
    | some (.value _) => none
    | some (.table opening inner) =>
      (changeAt change path inner).map fun inner => items.put key (.table opening inner)
    | some (.tables elements) =>
      (changeLast (changeAt change path) elements).map fun elements =>
        items.put key (.tables elements)

/-- Opens a table by its header.  Only a table that is there because of others in it may be opened
again. -/
def openTable (path : List (List Char)) (key : List Char) : Items → Option Items :=
  changeAt (fun items =>
    match items.lookup key with
    | none => some (items.put key (.table .header []))
    | some (.table .implied inner) => some (items.put key (.table .header inner))
    | some _ => none) path

def openElement (path : List (List Char)) (key : List Char) : Items → Option Items :=
  changeAt (fun items =>
    match items.lookup key with
    | none => some (items.put key (.tables [[]]))
    | some (.tables elements) => some (items.put key (.tables (elements ++ [[]])))
    | some _ => none) path

/-- Adds an entry under a dotted key, `accepts` saying whether these entries may be added to.  Of
the tables on the way the last one has to be opened by a dotted key, none by its own header. -/
def insert (accepts : Bool) (path : List (List Char)) (key : List Char) (value : Document)
    (items : Items) : Option Items :=
  match path with
  | [] =>
    if accepts && (items.lookup key).isNone then some (items.put key (.value value)) else none
  | next :: path =>
    match items.lookup next with
    | none =>
      (insert true path key value []).map fun inner => items.put next (.table .dotted inner)
    | some (.value _) => none
    | some (.table .header _) => none
    | some (.table opening inner) =>
      (insert (opening == .dotted) path key value inner).map fun inner =>
        items.put next (.table opening inner)
    | some (.tables elements) =>
      (changeLast (insert false path key value) elements).map fun elements =>
        items.put next (.tables elements)

end Items

end Gcode.Toml
