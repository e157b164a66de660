import Gcode.Settings.Document
import Gcode.Settings.Statement
import Gcode.Storage.FileFormat

/-!
# Live settings

The settings of a running machine.  If they have a file, the table is saved there after every
change; a change counts even when saving fails.
-/

namespace Gcode

structure LiveSettings where
  table : SettingsTable
  path : Option Path
  files : FileSystem
  listing : String

namespace LiveSettings

def unsaved (table : SettingsTable) (files : FileSystem) : LiveSettings :=
  { table, path := none, files, listing := "" }

/-- Settings with a file.  A file that exists holds the table and must hold a valid one; where
there is no file yet, the table is `fallback`. -/
def openFile (files : FileSystem) (path : Path) (fallback : SettingsTable) :
    Except SettingsError LiveSettings :=
  if files.contains path then do
    let table ← loadDocument SettingsTable.ofDocument? files path
    table.validate
    pure { table, path := some path, files, listing := "" }
  else pure { table := fallback, path := some path, files, listing := "" }

def save (settings : LiveSettings) : Except SettingsError LiveSettings :=
  match settings.path with
  | none => .ok settings
  | some path =>
    match saveDocument settings.files path settings.table.toDocument with
    | .error error => .error error
    | .ok files => .ok { settings with files }

def store (settings : LiveSettings) (index : UInt32) (value : Float) :
    Except SettingsError Unit × LiveSettings :=
  match settings.table.set index value with
  | .error error => (.error error, settings)
  | .ok table =>
    let changed := { settings with table }
    (.ok (), changed.save.toOption.getD changed)

def list (settings : LiveSettings) : LiveSettings :=
  { settings with listing := settings.listing ++ settings.table.report }

instance : SettingsHost LiveSettings where
  store index value settings := settings.store index value
  list := LiveSettings.list

end LiveSettings

end Gcode
