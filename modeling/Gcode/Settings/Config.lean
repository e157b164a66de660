import Gcode.Modal
import Gcode.Settings.Document
import Gcode.Storage.FileFormat

/-!
# Configurations

A configuration says how long an inch is, where the settings are kept, and which settings a
machine starts with.  Every entry has a default, so an empty document is a configuration.
-/

namespace Gcode

structure Config where
  mmPerInch : Float
  settingsFile : Option Path
  machine : SettingsTable
  deriving BEq, Repr

namespace Config

def standard : Config :=
  { mmPerInch := standardMmPerInch
    settingsFile := none
    machine := .standard }

def validate (config : Config) : Except SettingsError Unit :=
  if config.mmPerInch.isFinite && 0 < config.mmPerInch then config.machine.validate
  else .error (.valueOutOfRange "mm_per_inch" config.mmPerInch)

def fieldNames : List String := ["mm_per_inch", "settings_file", "machine"]

def toDocument (config : Config) : Document :=
  .record
    ([("mm_per_inch", .float config.mmPerInch)] ++
      (config.settingsFile.map fun path => ("settings_file", .text path)).toList ++
        [("machine", config.machine.toDocument)])

def settingsFile? : Document → Option (Option Path)
  | .null => some none
  | .text path => some (some path)
  | _ => none

def ofDocument? (surplus : Document.Surplus) (document : Document) : Option Config := do
  match ← document.fields? surplus fieldNames with
  | [mmPerInch, settingsFile, machine] =>
    pure
      { mmPerInch := ← mmPerInch.elim (some standard.mmPerInch) Document.float?
        settingsFile := ← settingsFile.elim (some none) settingsFile?
        machine := ← machine.elim (some standard.machine) (SettingsTable.ofDocument? surplus) }
  | _ => none

def load (files : FileSystem) (path : Path) : Except SettingsError Config := do
  let config ← loadDocument ofDocument? files path
  config.validate
  pure config

def save (config : Config) (files : FileSystem) (path : Path) :
    Except SettingsError FileSystem := do
  config.validate
  saveDocument files path config.toDocument

end Config

def ModalDefaults.ofSettings (table : SettingsTable) (mmPerInch : Float) : ModalDefaults :=
  { feedRate := table.defaultFeedRate
    seekRate := table.defaultSeekRate
    mmPerInch }

def ModalDefaults.ofConfig (config : Config) : ModalDefaults :=
  .ofSettings config.machine config.mmPerInch

end Gcode
