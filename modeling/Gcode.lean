import Gcode.Main
import Gcode.Geometry.PointText
import Gcode.Proofs.Block.Failure
import Gcode.Proofs.Block.LastWords
import Gcode.Proofs.Block.Status
import Gcode.Proofs.Geometry.Circle
import Gcode.Proofs.Program.Bookkeeping
import Gcode.Proofs.Program.Defined
import Gcode.Proofs.Program.Inches
import Gcode.Proofs.Program.Levelling
import Gcode.Proofs.Program.Log
import Gcode.Proofs.Program.Position
import Gcode.Proofs.Program.Rates
import Gcode.Proofs.Program.Repetition
import Gcode.Proofs.Program.Splitting
import Gcode.Proofs.Session.Replies
import Gcode.Proofs.Session.Validity
import Gcode.Proofs.Settings.Persistence
import Gcode.Proofs.Words.Grammar
import Gcode.Proofs.Block.Rereading
import Gcode.Proofs.Geometry.Side
import Gcode.Proofs.Session.Written
import Gcode.Proofs.Session.Tracing
import Gcode.Proofs.Words.Writing
import Gcode.Proofs.Geometry.Mirror
import Gcode.Proofs.Settings.Access
import Gcode.Proofs.Settings.Statement
import Gcode.Proofs.Settings.Configuration
import Gcode.Proofs.Settings.Reopening
import Gcode.Proofs.Geometry.Chords
import Gcode.Proofs.Session.Spelling
import Gcode.Proofs.Words.Cursor
import Gcode.Proofs.Document.Request
