import Gcode.Settings.Config
import Gcode.Program
import Gcode.Request.Document
import Gcode.Settings.Live
import Gcode.Storage.LineReader
import Gcode.Text.Lines
import Gcode.Text.Normalize

/-!
# Sessions

A session executes raw lines against one machine and answers each that is not empty: the requests of
the line if they are to be shown, then its status.  The requests are taken out of the log in which
the parts of the machine record them, so that none is left over for the next line.  `Session.run`
takes a whole input, and `Session.runFile?` a file of the session's file system, which the session
itself may change.
-/

namespace Gcode

inductive Output where
  | message (text : String)
  | request (shown : Request) (reach : Float)
  | status (code : StatusCode)

def Output.text : Output → String
  | .message text => text
  | .request shown reach =>
    String.ofList (Json.write .compact (shown.traceDocument reach)) ++ "\n"
  | .status code => code.reply ++ "\n"

structure Session where
  state : ModalState
  settings : LiveSettings
  showTrace : Bool
  log : RequestLog := .empty
  /-- The requests of a line are taken out before the next line. -/
  drained : log = .empty := by rfl

structure Tally where
  lines : Nat
  errors : Nat
  deriving DecidableEq, Repr

namespace Session

/-- A session under a configuration.  Its rates come from the settings table, which may differ
from the one in the configuration. -/
def start (config : Config) (settings : LiveSettings) (showTrace : Bool) : Session :=
  { state := .initial (.ofSettings settings.table config.mmPerInch)
    settings
    showTrace }

structure Step where
  session : Session
  listing : String
  replies : List Output
  status : Option StatusCode

def execute (session : Session) (raw : List Char) : Step :=
  let line := normalized raw
  if line = [] then { session, listing := "", replies := [], status := none }
  else
    let outcome := Gcode.execute line session.state { session.settings with listing := "" }
    let taken := (session.log.recordAll outcome.requests).take
    let reach := outcome.settings.table.mmPerArcSegment
    let shown := if session.showTrace then taken.1.map (Output.request · reach) else []
    { session :=
        { session with
          state := outcome.state
          settings :=
            { outcome.settings with
              listing := session.settings.listing ++ outcome.settings.listing }
          log := taken.2
          drained := rfl }
      listing := outcome.settings.listing
      replies := shown ++ [.status outcome.status]
      status := some outcome.status }

end Session

namespace Tally

def empty : Tally := ⟨0, 0⟩

def count (summary : Tally) : Option StatusCode → Tally
  | none => summary
  | some status =>
    ⟨summary.lines + 1, if status.isOk then summary.errors else summary.errors + 1⟩

end Tally

/-! ## Runs -/

structure Run where
  session : Session
  summary : Tally
  steps : List (String × List Output)
  complete : Bool

namespace Run

def outputs (run : Run) : List Output :=
  run.steps.flatMap fun (listing, replies) =>
    (if listing = "" then [] else [.message listing]) ++ replies

def replies (run : Run) : List Output := run.steps.flatMap Prod.snd

end Run

namespace Session

def runLines (session : Session) (summary : Tally) : List (List UInt8) → Run
  | [] => { session, summary, steps := [], complete := true }
  | bytes :: lines =>
    match decodeLine bytes with
    | none => { session, summary, steps := [], complete := false }
    | some raw =>
      let step := session.execute raw
      let run := runLines step.session (summary.count step.status) lines
      { run with steps := (step.listing, step.replies) :: run.steps }

def run (session : Session) (input : List UInt8) : Run :=
  session.runLines .empty (splitLines input)

def runReader : Nat → Session → Tally → LineReader → Run
  | 0, session, summary, _ => { session, summary, steps := [], complete := true }
  | pieces + 1, session, summary, reader =>
    match reader.next? session.settings.files with
    | none => { session, summary, steps := [], complete := true }
    | some (lines, reader) =>
      let first := session.runLines summary lines
      if first.complete then
        let rest := runReader pieces first.session first.summary reader
        { rest with steps := first.steps ++ rest.steps }
      else first

/-- Runs the file that a path names.  If the settings are kept in that very file, a line may change
what the next piece holds.  A piece takes bytes of the file as it was, or follows a `$` of them that
made the file grow, or ends a line without a line feed; so twice the size bounds their number. -/
def runFile? (session : Session) (path : Path) : Option Run := do
  let place ← session.settings.files.place? path
  let text ← session.settings.files.read? path
  pure (session.runReader (2 * text.utf8ByteSize) .empty (.start place))

end Session

end Gcode
