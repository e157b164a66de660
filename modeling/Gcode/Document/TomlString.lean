/-!
# Strings in TOML

TOML knows four kinds of strings: basic ones with escapes and literal ones without, each on one
line or over several.  `scanString` reads all of them.  `writeString` takes the first kind that
needs no escapes, in the order basic, literal, basic over lines, literal over lines; where all
need some, it escapes.
-/

namespace Gcode.Toml

def isPlain (c : Char) : Bool :=
  c = '\t' || (0x20 ≤ c.toNat && c.toNat != 0x7F)

def isSpace (c : Char) : Bool := c = ' ' || c = '\t'

def skipSpace (text : List Char) : List Char := text.dropWhile isSpace

def scanNewline? : List Char → Option (List Char)
  | '\n' :: rest => some rest
  | '\r' :: '\n' :: rest => some rest
  | _ => none

/-! ## Escapes -/

def hexValue? (c : Char) : Option Nat :=
  if c.isDigit then some (c.toNat - '0'.toNat)
  else if 'a' ≤ c && c ≤ 'f' then some (c.toNat - 'a'.toNat + 10)
  else if 'A' ≤ c && c ≤ 'F' then some (c.toNat - 'A'.toNat + 10)
  else none

def charOfCode? (code : Nat) : Option Char :=
  if code < 0xD800 || (0xDFFF < code && code < 0x110000) then some (Char.ofNat code) else none

def scanCode (count : Nat) (text : List Char) : Option (Char × List Char) := do
  let digits := text.take count
  if digits.length < count then none
  let code ← digits.foldlM (fun value digit => (hexValue? digit).map (16 * value + ·)) 0
  let c ← charOfCode? code
  pure (c, text.drop count)

def scanEscape : List Char → Option (Char × List Char)
  | 'b' :: rest => some ('\x08', rest)
  | 't' :: rest => some ('\t', rest)
  | 'n' :: rest => some ('\n', rest)
  | 'f' :: rest => some ('\x0c', rest)
  | 'r' :: rest => some ('\r', rest)
  | '"' :: rest => some ('"', rest)
  | '\\' :: rest => some ('\\', rest)
  | 'u' :: rest => scanCode 4 rest
  | 'U' :: rest => scanCode 8 rest
  | _ => none

/-! ## Reading

The first argument bounds the number of steps; each takes a character. -/

def scanBasic : Nat → List Char → Option (List Char × List Char)
  | 0, _ => none
  | steps + 1, text =>
    match text with
    | '"' :: rest => some ([], rest)
    | '\\' :: rest => do
      let (c, rest) ← scanEscape rest
      let (text, rest) ← scanBasic steps rest
      pure (c :: text, rest)
    | c :: rest =>
      if isPlain c then (scanBasic steps rest).map fun (text, rest) => (c :: text, rest) else none
    | [] => none

def scanLiteral : List Char → Option (List Char × List Char)
  | '\'' :: rest => some ([], rest)
  | c :: rest =>
    if isPlain c then (scanLiteral rest).map fun (text, rest) => (c :: text, rest) else none
  | [] => none

/-- What a run of quotes at the start of a text means in a string over several lines: fewer than
three are content; of more, up to two are content and three close the string. -/
def scanQuotes (quote : Char) (text : List Char) : List Char × Bool × List Char :=
  let run := (text.takeWhile (· == quote)).length
  if run < 3 then (List.replicate run quote, false, text.drop run)
  else
    let inside := min (run - 3) 2
    (List.replicate inside quote, true, text.drop (inside + 3))

def skipLines : Nat → List Char → List Char
  | 0, text => text
  | steps + 1, text =>
    let text := skipSpace text
    match scanNewline? text with
    | some rest => skipLines steps rest
    | none => text

/-- Reads a string over several lines, without its opening quotes and the line end behind them.
Line ends are read as line feeds; in a basic string a backslash at the end of a line joins it with
the next text. -/
def scanLong (quote : Char) : Nat → List Char → Option (List Char × List Char)
  | 0, _ => none
  | steps + 1, text =>
    match text with
    | [] => none
    | c :: rest =>
      if c = quote then
        let (inside, closed, rest) := scanQuotes quote text
        if closed then some (inside, rest)
        else (scanLong quote steps rest).map fun (text, rest) => (inside ++ text, rest)
      else if c = '\\' && quote = '"' then
        match scanNewline? (skipSpace rest) with
        | some next => scanLong quote steps (skipLines steps next)
        | none => do
          let (c, rest) ← scanEscape rest
          let (text, rest) ← scanLong quote steps rest
          pure (c :: text, rest)
      else
        match scanNewline? text with
        | some rest => (scanLong quote steps rest).map fun (text, rest) => ('\n' :: text, rest)
        | none =>
          if isPlain c then
            (scanLong quote steps rest).map fun (text, rest) => (c :: text, rest)
          else none

def scanLongBody (quote : Char) (text : List Char) : Option (List Char × List Char) :=
  let body := (scanNewline? text).getD text
  scanLong quote (body.length + 1) body

def scanString : List Char → Option (List Char × List Char)
  | '"' :: '"' :: '"' :: rest => scanLongBody '"' rest
  | '\'' :: '\'' :: '\'' :: rest => scanLongBody '\'' rest
  | '"' :: rest => scanBasic (rest.length + 1) rest
  | '\'' :: rest => scanLiteral rest
  | _ => none

/-! ## Writing -/

def longestRun (c : Char) (text : List Char) : Nat :=
  (text.foldl (fun (longest, run) next =>
    if next = c then (max longest (run + 1), run + 1) else (longest, 0)) (0, 0)).1

def needsEscape (c : Char) : Bool :=
  (c.toNat ≤ 0x1F && c != '\t' && c != '\n') || c.toNat == 0x7F

def escape? (long : Bool) (c : Char) : Option (List Char) :=
  if c = '\x08' then some ['\\', 'b']
  else if c = '\t' then some ['\\', 't']
  else if c = '\n' then if long then none else some ['\\', 'n']
  else if c = '\x0c' then some ['\\', 'f']
  else if c = '\r' then some ['\\', 'r']
  else if c = '\\' then some ['\\', '\\']
  else if needsEscape c then
    let digits := (Nat.toDigits 16 c.toNat).map Char.toUpper
    some (['\\', 'u'] ++ List.replicate (4 - digits.length) '0' ++ digits)
  else none

/-- The body of a basic string.  `run` counts the quotes written since the last other character: two
may follow each other in a string over several lines, none in one on a single line. -/
def escapeBasic (long : Bool) : (run : Nat) → List Char → List Char
  | _, [] => []
  | run, c :: rest =>
    if c = '"' then
      if run < (if long then 2 else 0) then '"' :: escapeBasic long (run + 1) rest
      else '\\' :: '"' :: escapeBasic long 0 rest
    else (escape? long c).getD [c] ++ escapeBasic long 0 rest

def openingBreak (text : List Char) : List Char :=
  if text.contains '\n' then ['\n'] else []

def writeString (text : List Char) : List Char :=
  let singles := longestRun '\'' text
  let doubles := longestRun '"' text
  let newline := text.contains '\n'
  let controls := text.any needsEscape
  let backslash := text.contains '\\'
  let basic := ['"'] ++ escapeBasic false 0 text ++ ['"']
  let longBasic :=
    ['"', '"', '"'] ++ openingBreak text ++ escapeBasic true 0 text ++ ['"', '"', '"']
  if !controls && !backslash && doubles == 0 && !newline then basic
  else if !controls && singles == 0 && !newline then ['\''] ++ text ++ ['\'']
  else if !controls && !backslash && doubles ≤ 2 then longBasic
  else if !controls && singles ≤ 2 then
    ['\'', '\'', '\''] ++ openingBreak text ++ text ++ ['\'', '\'', '\'']
  else if newline then longBasic
  else basic

end Gcode.Toml
