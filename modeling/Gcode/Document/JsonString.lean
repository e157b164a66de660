/-!
# Strings in JSON

`writeString` puts a text between quotes and `scanString` reads one.  An escape `\uXXXX` names one
unit of UTF-16, and two of them a character beyond the sixteen bits; a string in which such a half
stands alone is well formed but has no text.
-/

namespace Gcode.Json

/-- One element of a string as written: a character or a UTF-16 unit. -/
inductive StringUnit where
  | char (c : Char)
  | unit (code : Nat)
  deriving DecidableEq, Repr

def isHighSurrogate (code : Nat) : Bool := 0xD800 ≤ code && code ≤ 0xDBFF

def isLowSurrogate (code : Nat) : Bool := 0xDC00 ≤ code && code ≤ 0xDFFF

def decodeUnits : List StringUnit → Option (List Char)
  | [] => some []
  | .char c :: units => (decodeUnits units).map (c :: ·)
  | .unit high :: .unit low :: units =>
    if isHighSurrogate high then
      if isLowSurrogate low then
        (decodeUnits units).map
          (Char.ofNat (0x10000 + (high - 0xD800) * 0x400 + (low - 0xDC00)) :: ·)
      else none
    else if isLowSurrogate high then none
    else (decodeUnits (.unit low :: units)).map (Char.ofNat high :: ·)
  | .unit code :: units =>
    if isHighSurrogate code || isLowSurrogate code then none
    else (decodeUnits units).map (Char.ofNat code :: ·)

def hexValue? (c : Char) : Option Nat :=
  if c.isDigit then some (c.toNat - '0'.toNat)
  else if 'a' ≤ c && c ≤ 'f' then some (c.toNat - 'a'.toNat + 10)
  else if 'A' ≤ c && c ≤ 'F' then some (c.toNat - 'A'.toNat + 10)
  else none

def hexNumber? (digits : List Char) : Option Nat :=
  digits.foldlM (fun value digit => (hexValue? digit).map (16 * value + ·)) 0

def shortEscape? : Char → Option Char
  | '"' => some '"'
  | '\\' => some '\\'
  | '/' => some '/'
  | 'b' => some '\x08'
  | 'f' => some '\x0c'
  | 'n' => some '\n'
  | 'r' => some '\r'
  | 't' => some '\t'
  | _ => none

def scanString : List Char → Option (List StringUnit × List Char)
  | [] => none
  | '"' :: rest => some ([], rest)
  | '\\' :: 'u' :: a :: b :: c :: d :: rest => do
    let code ← hexNumber? [a, b, c, d]
    let (units, rest) ← scanString rest
    pure (.unit code :: units, rest)
  | '\\' :: e :: rest => do
    let c ← shortEscape? e
    let (units, rest) ← scanString rest
    pure (.char c :: units, rest)
  | c :: rest =>
    if c.toNat < 0x20 || c = '\\' then none
    else do
      let (units, rest) ← scanString rest
      pure (.char c :: units, rest)

def escape (c : Char) : List Char :=
  if c = '"' then ['\\', '"']
  else if c = '\\' then ['\\', '\\']
  else if c = '\x08' then ['\\', 'b']
  else if c = '\t' then ['\\', 't']
  else if c = '\n' then ['\\', 'n']
  else if c = '\x0c' then ['\\', 'f']
  else if c = '\r' then ['\\', 'r']
  else if c.toNat < 0x20 then
    let digits := Nat.toDigits 16 c.toNat
    ['\\', 'u'] ++ List.replicate (4 - digits.length) '0' ++ digits
  else [c]

def writeString (text : List Char) : List Char :=
  '"' :: (text.flatMap escape ++ ['"'])

end Gcode.Json
