import Gcode.Decimal.Layout
import Gcode.Geometry.Point
import Gcode.Settings.Error

/-!
# The settings table

Eight numbered settings describe the machine.  Each has its own rule for the values it takes; a
value that breaks the rule leaves the table as it was.  Two settings are bytes and keep only the
whole part of a value.
-/

namespace Gcode

inductive Setting where
  | stepsPerMm (axis : Axis)
  | pulseMicroseconds
  | defaultFeedRate
  | defaultSeekRate
  | mmPerArcSegment
  | invertMask
  deriving DecidableEq, Repr

namespace Setting

def all : List Setting :=
  [stepsPerMm .x, stepsPerMm .y, stepsPerMm .z, pulseMicroseconds, defaultFeedRate, defaultSeekRate,
    mmPerArcSegment, invertMask]

def index : Setting → UInt32
  | stepsPerMm .x => 0
  | stepsPerMm .y => 1
  | stepsPerMm .z => 2
  | pulseMicroseconds => 3
  | defaultFeedRate => 4
  | defaultSeekRate => 5
  | mmPerArcSegment => 6
  | invertMask => 7

def ofIndex? (index : UInt32) : Option Setting :=
  all[index.toNat]?

def description : Setting → String
  | stepsPerMm .x => "steps/mm x"
  | stepsPerMm .y => "steps/mm y"
  | stepsPerMm .z => "steps/mm z"
  | pulseMicroseconds => "microseconds step pulse"
  | defaultFeedRate => "mm/min default feed rate"
  | defaultSeekRate => "mm/min default seek rate"
  | mmPerArcSegment => "mm/arc segment"
  | invertMask => "step port invert mask"

def describe? (index : UInt32) : Option String :=
  (ofIndex? index).map description

@[simp] theorem ofIndex?_index (setting : Setting) : ofIndex? setting.index = some setting := by
  cases setting with
  | stepsPerMm axis => cases axis <;> rfl
  | _ => rfl

def finiteComplaint? (setting : Setting) (value : Float) : Option Complaint :=
  match setting with
  | stepsPerMm _ | mmPerArcSegment => if 0 < value then none else some .notPositive
  | defaultFeedRate | defaultSeekRate => if 0 ≤ value then none else some .negative
  | pulseMicroseconds | invertMask => if 0 ≤ value && value < 256 then none else some .notByte

end Setting

structure SettingsTable where
  stepsPerMm : Point Float
  pulseMicroseconds : UInt8
  defaultFeedRate : Float
  defaultSeekRate : Float
  mmPerArcSegment : Float
  invertMask : UInt8
  deriving BEq, Repr

namespace SettingsTable

def standard : SettingsTable :=
  { stepsPerMm := .replicate 400
    pulseMicroseconds := 30
    defaultFeedRate := 480
    defaultSeekRate := 480
    mmPerArcSegment := 0.1
    invertMask := 0 }

instance : Inhabited SettingsTable := ⟨standard⟩

def value (table : SettingsTable) : Setting → Float
  | .stepsPerMm axis => table.stepsPerMm.get axis
  | .pulseMicroseconds => table.pulseMicroseconds.toFloat
  | .defaultFeedRate => table.defaultFeedRate
  | .defaultSeekRate => table.defaultSeekRate
  | .mmPerArcSegment => table.mmPerArcSegment
  | .invertMask => table.invertMask.toFloat

def byteOf (value : Float) : UInt8 :=
  UInt8.ofNat (truncateWithin 0 255 value).toNat

/-- The table with another value for a setting, whatever its rule says. -/
def put (table : SettingsTable) (setting : Setting) (value : Float) : SettingsTable :=
  match setting with
  | .stepsPerMm axis => { table with stepsPerMm := table.stepsPerMm.set axis value }
  | .pulseMicroseconds => { table with pulseMicroseconds := byteOf value }
  | .defaultFeedRate => { table with defaultFeedRate := value }
  | .defaultSeekRate => { table with defaultSeekRate := value }
  | .mmPerArcSegment => { table with mmPerArcSegment := value }
  | .invertMask => { table with invertMask := byteOf value }

def get? (table : SettingsTable) (index : UInt32) : Option Float :=
  (Setting.ofIndex? index).map table.value

/-- The table with another value for the setting with a number.  That a value is not finite is found
before the number of the setting is looked up. -/
def set (table : SettingsTable) (index : UInt32) (value : Float) :
    Except SettingsError SettingsTable :=
  if value.isFinite then
    match Setting.ofIndex? index with
    | none => .error (.unknownSetting index)
    | some setting =>
      match setting.finiteComplaint? value with
      | some complaint => .error (.invalidValue index value complaint)
      | none => .ok (table.put setting value)
  else .error (.invalidValue index value .notFinite)

def replay (table scratch : SettingsTable) (index : UInt32) : Except SettingsError SettingsTable :=
  match table.get? index with
  | some value => scratch.set index value
  | none => .ok scratch

/-- Sets every setting of a copy once more.  The first value that is refused is the error. -/
def validate (table : SettingsTable) : Except SettingsError Unit := do
  let _ ← (Setting.all.map Setting.index).foldlM table.replay table
  pure ()

def binaryDigits (byte : UInt8) : String :=
  let digits := Nat.toDigits 2 byte.toNat
  String.ofList (List.replicate (8 - digits.length) '0' ++ digits)

def reportLine (table : SettingsTable) (setting : Setting) : String :=
  let head := "$" ++ toString setting.index.toNat ++ " = "
  match setting with
  | .invertMask =>
    head ++ toString table.invertMask.toNat ++ " (" ++ setting.description ++ ", binary = " ++
      binaryDigits table.invertMask ++ ")\n"
  | _ => head ++ fixedText 3 (table.value setting) ++ " (" ++ setting.description ++ ")\n"

def report (table : SettingsTable) : String :=
  String.join (Setting.all.map table.reportLine) ++
    "'$x=value' to set parameter or just '$' to dump current settings\n"

end SettingsTable

end Gcode
