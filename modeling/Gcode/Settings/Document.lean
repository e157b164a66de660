import Gcode.Document.Basic
import Gcode.Settings.Table

/-!
# The settings table as a document
-/

namespace Gcode.SettingsTable

def fieldNames : List String :=
  ["steps_per_mm", "pulse_microseconds", "default_feed_rate", "default_seek_rate",
    "mm_per_arc_segment", "invert_mask"]

def toDocument (table : SettingsTable) : Document :=
  .record
    [("steps_per_mm", .list (table.stepsPerMm.toList.map .float)),
      ("pulse_microseconds", .integer table.pulseMicroseconds.toNat),
      ("default_feed_rate", .float table.defaultFeedRate),
      ("default_seek_rate", .float table.defaultSeekRate),
      ("mm_per_arc_segment", .float table.mmPerArcSegment),
      ("invert_mask", .integer table.invertMask.toNat)]

def byte? (document : Document) : Option UInt8 :=
  match document with
  | .integer value => if 0 ≤ value ∧ value < 256 then some (UInt8.ofNat value.toNat) else none
  | _ => none

def steps? (surplus : Document.Surplus) (document : Document) : Option (Point Float) :=
  match document with
  | .list (x :: y :: z :: others) =>
    if surplus = .refused && others.length != 0 then none
    else do pure ⟨← x.float?, ← y.float?, ← z.float?⟩
  | _ => none

def ofDocument? (surplus : Document.Surplus) (document : Document) : Option SettingsTable := do
  match ← document.fields? surplus fieldNames with
  | [some steps, some pulse, some feed, some seek, some segment, some mask] =>
    pure
      { stepsPerMm := ← steps? surplus steps
        pulseMicroseconds := ← byte? pulse
        defaultFeedRate := ← feed.float?
        defaultSeekRate := ← seek.float?
        mmPerArcSegment := ← segment.float?
        invertMask := ← byte? mask }
  | _ => none

end Gcode.SettingsTable
