import Gcode.Text.Printable

/-!
# Character literals

A character in single quotes, as messages show it.  Quote, backslash and the common controls are
written with a backslash, other characters without a glyph by their code point, all else as itself.
-/

namespace Gcode

def hexDigits (code : Nat) : List Char := Nat.toDigits 16 code

def escapeChar (c : Char) : List Char :=
  if c = '\x00' then ['\\', '0']
  else if c = '\t' then ['\\', 't']
  else if c = '\n' then ['\\', 'n']
  else if c = '\r' then ['\\', 'r']
  else if c = '\\' then ['\\', '\\']
  else if c = '\'' then ['\\', '\'']
  else if isPrintable c then [c]
  else ['\\', 'u', '\x7b'] ++ hexDigits c.toNat ++ ['\x7d']

def charLiteral (c : Char) : String :=
  String.ofList (['\''] ++ escapeChar c ++ ['\''])

end Gcode
