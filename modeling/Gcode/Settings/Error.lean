import Gcode.Decimal.Layout

/-!
# Errors of settings and configurations
-/

namespace Gcode

inductive Complaint where
  | notFinite
  | notPositive
  | negative
  | notByte
  deriving DecidableEq, Repr

def Complaint.text : Complaint → String
  | .notFinite => "must be a finite number"
  | .notPositive => "must be greater than zero"
  | .negative => "must not be negative"
  | .notByte => "must be between 0 and 255"

inductive SettingsError where
  | unknownSetting (index : UInt32)
  | invalidValue (index : UInt32) (value : Float) (complaint : Complaint)
  | unsupportedFormat (extension : Option String)
  | valueOutOfRange (key : String) (value : Float)
  | io
  | malformedJson
  | malformedToml
  deriving Repr

namespace SettingsError

/-- The message, except where it would only repeat what a reader of documents or a file system
says. -/
def message? : SettingsError → Option String
  | unknownSetting index => some ("Unknown setting $" ++ toString index.toNat)
  | invalidValue index value complaint =>
    some ("Invalid value " ++ plainText value ++ " for setting $" ++ toString index.toNat ++ ": " ++
      complaint.text)
  | unsupportedFormat extension =>
    some ("Unsupported config format: " ++ extension.getD "<none>")
  | valueOutOfRange key value =>
    some ("Value out of range for '" ++ key ++ "': " ++ plainText value)
  | io | malformedJson | malformedToml => none

end SettingsError

end Gcode
