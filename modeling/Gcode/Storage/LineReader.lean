import Gcode.Storage.FileSystem
import Gcode.Text.Lines

/-!
# Reading a file while it may change

A `LineReader` reads the lines of a file a piece at a time.  Each piece comes from the file as it is
by then: what was read stays read, and a file that has grown goes on behind it.
-/

namespace Gcode

structure LineReader where
  place : Place
  offset : Nat
  pending : List UInt8

namespace LineReader

def pieceSize : Nat := 8192

def start (place : Place) : LineReader := ⟨place, 0, []⟩

def piece (reader : LineReader) (files : FileSystem) : List UInt8 :=
  match files.entry? reader.place with
  | some (.file text) => (text.toUTF8.toList.drop reader.offset).take pieceSize
  | _ => []

/-- Reads a piece: the lines that it completes.  At the end of the file a line needs no line feed,
and after that there is nothing left. -/
def next? (reader : LineReader) (files : FileSystem) : Option (List (List UInt8) × LineReader) :=
  match reader.piece files, reader.pending with
  | [], [] => none
  | [], pending => some ([pending], { reader with pending := [] })
  | piece, pending =>
    let (lines, rest) := cutLines (pending ++ piece)
    some (lines, ⟨reader.place, reader.offset + piece.length, rest⟩)

end LineReader

end Gcode
