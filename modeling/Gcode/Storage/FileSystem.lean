import Gcode.Storage.Path

/-!
# File systems

A `FileSystem` is a value: a set of places, each a directory or a file with its text.  Reading
looks a place up, and writing gives a new file system.  What is there lies in a directory that is
there too, as directories are made from the top down.

A place is the list of names that lead to it from the working directory.  Places above the working
directory start with `..`, absolute ones with `/`; those roots are directories that are always
there.
-/

namespace Gcode

/-- Where a file or directory is: how many names lead to it, and the names, the last one first.
Places of different depth are told apart without a look at their names. -/
structure Place where
  depth : Nat
  names : List (List Char)
  depth_eq : depth = names.length
  deriving DecidableEq, Repr

namespace Place

def workingDirectory : Place := ⟨0, [], rfl⟩

def root : Place := ⟨1, [['/']], rfl⟩

def child (place : Place) (name : List Char) : Place :=
  ⟨place.depth + 1, name :: place.names, by simp [place.depth_eq]⟩

def parent (place : Place) : Place :=
  ⟨place.depth - 1, place.names.tail, by simp [place.depth_eq]⟩

def isAbove (place : Place) : Bool := place.names.all (· == ['.', '.'])

def isRoot (place : Place) : Bool := place == root || place.isAbove

def enter (here : Place) (name : List Char) : Place :=
  if name != ['.', '.'] then here.child name
  else if here == root then here
  else if here.isAbove then here.child name
  else here.parent

end Place

inductive Entry where
  | directory
  | file (text : String)
  deriving DecidableEq, Repr

/-- The entries of a file system; where a place is listed twice, the first counts. -/
structure FileSystem where
  entries : List (Place × Entry)
  deriving DecidableEq, Repr

namespace FileSystem

def empty : FileSystem := ⟨[]⟩

def entry? (files : FileSystem) (place : Place) : Option Entry :=
  if place.isRoot then some .directory else files.entries.lookup place

def isDirectory (files : FileSystem) (place : Place) : Bool :=
  files.entry? place == some .directory

def insert (files : FileSystem) (place : Place) (entry : Entry) : FileSystem :=
  ⟨(place, entry) :: files.entries.filter (·.1 != place)⟩

/-- Follows names through existing directories; the last name need not exist.  A directory is
looked up where the names leave it by `..` or end in it, as those above it are there too. -/
def follow (files : FileSystem) : Place → List (List Char) → Option Place
  | here, [] => some here
  | here, name :: names =>
    let isPassed := name != ['.', '.'] && !names.isEmpty
    if (isPassed || files.isDirectory here) && Path.isValidName name then
      files.follow (here.enter name) names
    else none

def origin (path : Path) : Place :=
  if path.isAbsolute then .root else .workingDirectory

def place? (files : FileSystem) (path : Path) : Option Place :=
  if path != [] && path.fits then files.follow (origin path) path.names else none

def pathEntry? (files : FileSystem) (path : Path) : Option Entry := do
  let entry ← files.entry? (← files.place? path)
  if path.asksForDirectory && entry != .directory then none else some entry

def contains (files : FileSystem) (path : Path) : Bool :=
  (files.pathEntry? path).isSome

def read? (files : FileSystem) (path : Path) : Option String :=
  match files.pathEntry? path with
  | some (.file text) => some text
  | _ => none

def write? (files : FileSystem) (path : Path) (text : String) : Option FileSystem := do
  let place ← files.place? path
  if path.asksForDirectory || files.isDirectory place then none
  else some (files.insert place (.file text))

def makeEach : FileSystem → Place → List (List Char) → Option FileSystem
  | files, _, [] => some files
  | files, here, name :: names =>
    if Path.isValidName name then
      let next := here.enter name
      match files.entry? next with
      | some .directory => makeEach files next names
      | some (.file _) => none
      | none => makeEach (files.insert next .directory) next names
    else none

def makeDirectories (files : FileSystem) (here : Place) (names : List (List Char)) :
    Option FileSystem :=
  if (files.follow here names).any files.isDirectory then some files
  else files.makeEach here names

def writeWithParents? (files : FileSystem) (path : Path) (text : String) : Option FileSystem := do
  if path.fits then
    let files ← files.makeDirectories (origin path) path.names.dropLast
    files.write? path text
  else none

def makeDirectory? (files : FileSystem) (path : Path) : Option FileSystem :=
  if path.fits then files.makeDirectories (origin path) path.names else none

end FileSystem

end Gcode
