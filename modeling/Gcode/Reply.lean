import Gcode.Decimal.Layout
import Gcode.Text.CharLiteral

/-!
# Replies

Each line of a program is answered by a `StatusCode`.  A line that fails has a cause, a `LineError`,
which knows its message and its status.
-/

namespace Gcode

inductive StatusCode where
  | ok
  | badNumberFormat
  | expectedCommandLetter
  | unsupportedStatement
  | floatingPointError
  deriving DecidableEq, Repr

namespace StatusCode

def all : List StatusCode :=
  [ok, badNumberFormat, expectedCommandLetter, unsupportedStatement, floatingPointError]

def code : StatusCode → Nat
  | ok => 0
  | badNumberFormat => 1
  | expectedCommandLetter => 2
  | unsupportedStatement => 3
  | floatingPointError => 5

def isOk (status : StatusCode) : Bool := status == ok

def name : StatusCode → String
  | ok => "Ok"
  | badNumberFormat => "BadNumberFormat"
  | expectedCommandLetter => "ExpectedCommandLetter"
  | unsupportedStatement => "UnsupportedStatement"
  | floatingPointError => "FloatingPointError"

def reply : StatusCode → String
  | ok => "ok"
  | badNumberFormat => "error: Bad number format"
  | expectedCommandLetter => "error: Expected command letter"
  | unsupportedStatement => "error: Unsupported statement"
  | floatingPointError => "error: Floating point error"

end StatusCode

/-- Why a line fails.  Columns are byte offsets in the line's UTF-8 text. -/
inductive LineError where
  | badNumberFormat (column : Nat)
  | expectedCommandLetter (column : Nat) (found : Char)
  | unsupportedStatement (statement : String)
  | floatingPointError (reason : String)
  deriving DecidableEq, Repr

namespace LineError

def unsupportedWord (letter : Char) (value : Float) : LineError :=
  .unsupportedStatement (letter.toString ++ plainText value)

def message : LineError → String
  | badNumberFormat column => "Bad number format at column " ++ toString column
  | expectedCommandLetter column found =>
    "Expected command letter at column " ++ toString column ++ ", found " ++ charLiteral found
  | unsupportedStatement statement => "Unsupported statement: " ++ statement
  | floatingPointError reason => "Floating point error: " ++ reason

def status : LineError → StatusCode
  | badNumberFormat _ => .badNumberFormat
  | expectedCommandLetter _ _ => .expectedCommandLetter
  | unsupportedStatement _ => .unsupportedStatement
  | floatingPointError _ => .floatingPointError

theorem status_ne_ok (error : LineError) : error.status ≠ .ok := by
  cases error <;> simp [status]

end LineError

def StatusCode.ofResult {α : Type} : Except LineError α → StatusCode
  | .ok _ => .ok
  | .error error => error.status

end Gcode
