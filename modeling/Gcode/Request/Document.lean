import Gcode.Document.Json
import Gcode.Modal
import Gcode.Request

/-!
# Requests and states as documents

A request is a table whose entry `request` says which one it is; a feed is a table with one entry
named for its kind.  `Request.ofJson?` reads requests back.
-/

namespace Gcode

/-! ## Writing -/

def Axis.toDocument (axis : Axis) : Document := .text [axis.letter]

def Point.toDocument (point : Point Float) : Document := .list (point.toList.map .float)

def Plane.toDocument (plane : Plane) : Document :=
  .record
    [("axis_0", plane.first.toDocument), ("axis_1", plane.second.toDocument),
      ("axis_2", plane.across.toDocument)]

def Feed.toDocument : Feed → Document
  | .unitsPerSecond rate => .record [("UnitsPerSecond", .float rate)]
  | .inverseTime time => .record [("InverseTime", time.elim .null .float)]

def SpindleDirection.toDocument (direction : SpindleDirection) : Document := .word direction.name

def arcFieldNames : List String :=
  ["theta_start", "angular_travel", "radius", "depth", "plane", "feed"]

def arcDocument (helix : Helix Float) (feed : Feed) : Document :=
  .record
    [("theta_start", .float helix.startBearing),
      ("angular_travel", .float helix.travel),
      ("radius", .float helix.radius),
      ("depth", .float helix.depth),
      ("plane", helix.plane.toDocument),
      ("feed", feed.toDocument)]

namespace Request

def tag : Request → String
  | line _ _ => "line"
  | arc _ _ => "arc"
  | dwell _ => "dwell"
  | goHome => "go_home"
  | spindleRun _ _ => "spindle_run"
  | spindleStop => "spindle_stop"

def fields : Request → List (String × Document)
  | line target feed => [("target", target.toDocument), ("feed", feed.toDocument)]
  | arc helix feed => [("arc", arcDocument helix feed)]
  | dwell milliseconds => [("milliseconds", .integer milliseconds.toNat)]
  | goHome => []
  | spindleRun direction speed =>
    [("direction", direction.toDocument), ("speed", .integer speed.toInt)]
  | spindleStop => []

def toDocument (request : Request) : Document :=
  .record (("request", .word request.tag) :: request.fields)

def toJson (request : Request) : List Char := Json.write .compact request.toDocument

/-- The request as a trace shows it: with the number of chords of an arc, and keys in alphabetical
order. -/
def traceDocument (request : Request) (reach : Float) : Document :=
  let segments : List (String × Document) :=
    match request with
    | arc helix _ => [("segments", .integer (helix.chordCount reach))]
    | _ => []
  (Document.record (("request", .word request.tag) :: request.fields ++ segments)).sortKeys

end Request

def ModalState.toDocument (state : ModalState) : Document :=
  .record
    [("status_code", .word state.status.name),
      ("motion_mode", .word state.motionMode.name),
      ("inverse_feed_rate_mode", .boolean state.inverseFeedRateMode),
      ("units", .word state.units.documentName),
      ("absolute_mode", .boolean state.absoluteMode),
      ("program_flow", .word state.programFlow.name),
      ("spindle_direction", state.spindleDirection.toDocument),
      ("feed_rate", .float state.feedRate),
      ("seek_rate", .float state.seekRate),
      ("position", state.position.toDocument),
      ("tool", .integer state.tool.toNat),
      ("spindle_speed", .integer state.spindleSpeed.toInt),
      ("plane", state.plane.toDocument),
      ("mm_per_inch", .float state.mmPerInch)]

/-! ## Reading

Wherever a table stands for a record, a list of exactly its entries does too. -/

def name? : Document → Option (List Char)
  | .text name => some name
  | .table [(name, .null)] => some name
  | .table [(name, .table [])] => some name
  | _ => none

def Axis.ofDocument? (document : Document) : Option Axis := do
  match ← name? document with
  | [letter] => ofLetter? letter
  | _ => none

def SpindleDirection.ofDocument? (document : Document) : Option SpindleDirection := do
  let name ← name? document
  all.find? fun direction => direction.name.toList == name

def Point.ofDocument? : Document → Option (Point Float)
  | .list [x, y, z] => do pure ⟨← x.float?, ← y.float?, ← z.float?⟩
  | _ => none

def Plane.ofDocument? (document : Document) : Option Plane := do
  match ← document.fields? .refused ["axis_0", "axis_1", "axis_2"] with
  | [some first, some second, some across] =>
    pure ⟨← Axis.ofDocument? first, ← Axis.ofDocument? second, ← Axis.ofDocument? across⟩
  | _ => none

def Feed.ofDocument? : Document → Option Feed
  | .table [(kind, value)] =>
    if kind = "UnitsPerSecond".toList then value.float?.map .unitsPerSecond
    else if kind = "InverseTime".toList then
      match value with
      | .null => some (.inverseTime none)
      | value => value.float?.map fun time => .inverseTime (some time)
    else none
  | _ => none

def arcOfDocument? (document : Document) : Option (Helix Float × Feed) := do
  match ← document.fields? .refused arcFieldNames with
  | [some startBearing, some travel, some radius, some depth, some plane, some feed] =>
    let helix : Helix Float :=
      { startBearing := ← startBearing.float?
        travel := ← travel.float?
        radius := ← radius.float?
        depth := ← depth.float?
        plane := ← Plane.ofDocument? plane }
    pure (helix, ← Feed.ofDocument? feed)
  | _ => none

def unsigned? (document : Document) : Option UInt32 :=
  match document with
  | .integer value =>
    if 0 ≤ value ∧ value ≤ 0xFFFFFFFF then some (UInt32.ofNat value.toNat) else none
  | _ => none

def signed? (document : Document) : Option Int32 :=
  match document with
  | .integer value =>
    if -0x80000000 ≤ value ∧ value ≤ 0x7FFFFFFF then some (Int32.ofInt value) else none
  | _ => none

namespace Request

def isBare : Document → Bool
  | .table _ => true
  | .list items => items.isEmpty
  | _ => false

def ofTagged? (tag : List Char) (rest : Document) : Option Request :=
  if tag = "line".toList then do
    match ← rest.fields? .refused ["target", "feed"] with
    | [some target, some feed] =>
      pure (.line (← Point.ofDocument? target) (← Feed.ofDocument? feed))
    | _ => none
  else if tag = "arc".toList then do
    match ← rest.fields? .refused ["arc"] with
    | [some path] => do
      let (helix, feed) ← arcOfDocument? path
      pure (.arc helix feed)
    | _ => none
  else if tag = "dwell".toList then do
    match ← rest.fields? .refused ["milliseconds"] with
    | [some milliseconds] => pure (.dwell (← unsigned? milliseconds))
    | _ => none
  else if tag = "go_home".toList then if isBare rest then some .goHome else none
  else if tag = "spindle_run".toList then do
    match ← rest.fields? .refused ["direction", "speed"] with
    | [some direction, some speed] =>
      pure (.spindleRun (← SpindleDirection.ofDocument? direction) (← signed? speed))
    | _ => none
  else if tag = "spindle_stop".toList then if isBare rest then some .spindleStop else none
  else none

/-- The request that a document holds.  The name stands under `request` in a table and first in a
list. -/
def ofDocument? : Document → Option Request
  | .table entries => do
    let tag ← (← Document.entry? entries "request".toList)
    ofTagged? (← tag.text?) (.table (entries.filter (·.1 != "request".toList)))
  | .list (tag :: items) => do ofTagged? (← tag.text?) (.list items)
  | _ => none

def maxDepth : Nat := 127

/-- Reads a request from JSON.  Every part of the text has to have a value, also one that is not
used. -/
def ofJson? (text : List Char) : Option Request := do
  let document ← Json.read? text
  if document.isReadable && document.depth ≤ maxDepth then ofDocument? document else none

end Request

end Gcode
