import Gcode.Text.Position

/-!
# Paths

A path is a text of names between slashes.  Empty names and `.` stand for nothing, `..` for the
directory above.  A leading slash makes a path absolute; one at the end asks for a directory.
-/

namespace Gcode

abbrev Path := List Char

namespace Path

def splitSlashes : List Char → List (List Char)
  | [] => [[]]
  | c :: rest =>
    if c = '/' then [] :: splitSlashes rest
    else
      match splitSlashes rest with
      | [] => [[c]]
      | name :: names => (c :: name) :: names

def names (path : Path) : List (List Char) :=
  (splitSlashes path).filter fun name => name != [] && name != ['.']

def isAbsolute (path : Path) : Bool := path.head? == some '/'

def asksForDirectory (path : Path) : Bool :=
  match (splitSlashes path).getLast? with
  | some last => last == [] || last == ['.']
  | none => true

def isValidName (name : List Char) : Bool := !name.contains '\x00' && byteLength name ≤ 255

/-- Whether a file system takes a path at all: at most 4095 bytes as written, with the slashes and
names that stand for nothing. -/
def fits (path : Path) : Bool := byteLength path ≤ 4095

def fileName? (path : Path) : Option (List Char) :=
  match path.names.getLast? with
  | some name => if name = ['.', '.'] then none else some name
  | none => none

/-- What stands behind the last point of the file name.  A point at the very start of the name does
not count. -/
def extension? (path : Path) : Option (List Char) :=
  match path.fileName? with
  | none => none
  | some name =>
    let reversed := name.reverse
    let before := (reversed.dropWhile (· != '.')).drop 1
    if before = [] then none else some (reversed.takeWhile (· != '.')).reverse

end Path

end Gcode
