import Gcode.Document.Json
import Gcode.Document.Toml
import Gcode.Settings.Error
import Gcode.Storage.FileSystem

/-!
# Document files

A document is kept in a file whose extension names its format.  `loadDocument` and `saveDocument`
are the two directions; saving makes the directories above the file.
-/

namespace Gcode

inductive FileFormat where
  | json
  | toml
  deriving DecidableEq, Repr

namespace FileFormat

def name : FileFormat → String
  | json => "Json"
  | toml => "Toml"

def ofPath (path : Path) : Except SettingsError FileFormat :=
  match path.extension? with
  | none => .error (.unsupportedFormat none)
  | some extension =>
    if extension = "json".toList then .ok json
    else if extension = "toml".toList then .ok toml
    else .error (.unsupportedFormat (some (String.ofList extension)))

theorem exists_ofPath_iff {path : Path} :
    (∃ format, ofPath path = .ok format) ↔
      path.extension? = some "json".toList ∨ path.extension? = some "toml".toList := by
  unfold ofPath
  cases path.extension? with
  | none => simp
  | some extension =>
    simp only [Option.some.injEq]
    split
    · next json => exact iff_of_true ⟨_, rfl⟩ (.inl json)
    · next json =>
      split
      · next toml => exact iff_of_true ⟨_, rfl⟩ (.inr toml)
      · next toml => exact iff_of_false (fun ⟨_, h⟩ => nomatch h) (not_or.2 ⟨json, toml⟩)

def surplus : FileFormat → Document.Surplus
  | json => .refused
  | toml => .ignored

def malformed : FileFormat → SettingsError
  | json => .malformedJson
  | toml => .malformedToml

def read? (format : FileFormat) (text : List Char) : Option Document :=
  match format with
  | json => Json.read? text
  | toml => Toml.read? text

def write (format : FileFormat) (document : Document) : List Char :=
  match format with
  | json => Json.write .indented document
  | toml => Toml.write document

end FileFormat

def loadDocument {α : Type} (decode? : Document.Surplus → Document → Option α) (files : FileSystem)
    (path : Path) : Except SettingsError α :=
  match FileFormat.ofPath path with
  | .error error => .error error
  | .ok format =>
    match files.read? path with
    | none => .error .io
    | some text =>
      match (format.read? text.toList).bind (decode? format.surplus) with
      | none => .error format.malformed
      | some value => .ok value

def saveDocument (files : FileSystem) (path : Path) (document : Document) :
    Except SettingsError FileSystem :=
  match FileFormat.ofPath path with
  | .error error => .error error
  | .ok format =>
    match files.writeWithParents? path (String.ofList (format.write document)) with
    | none => .error .io
    | some files => .ok files

end Gcode
