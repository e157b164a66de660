import Gcode.Word
import Gcode.Settings.Error

/-!
# Settings statements

A line that starts with `$` addresses the settings: `$` alone lists them and `$N=V` stores the value
`V` in setting `N`.  Both are numbers as in words, and `N` is truncated towards zero.
-/

namespace Gcode

inductive SettingsStatement where
  | list
  | store (index : UInt32) (value : Float)
  deriving Repr

/-- The number of a setting as written: truncated towards zero.  A number beyond 32 bits names no
setting rather than another one. -/
def settingNumber? (value : Float) : Option UInt32 :=
  match floatParts value with
  | .finite negative magnitude =>
    if negative && magnitude.floor != 0 then none
    else if magnitude.floor < UInt32.size then some (UInt32.ofNat magnitude.floor)
    else none
  | _ => none

def SettingsStatement.parse (line : List Char) : Except LineError SettingsStatement :=
  let unsupported := .error (.unsupportedStatement (String.ofList line))
  match line with
  | ['$'] => .ok .list
  | '$' :: body =>
    match scanNumeral body with
    | none => .error (.badNumberFormat 1)
    | some (index, '=' :: rest) =>
      match scanNumeral rest with
      | none => .error (.badNumberFormat (index.text.length + 2))
      | some (value, []) =>
        match settingNumber? index.value with
        | some index => .ok (.store index value.value)
        | none => unsupported
      | some _ => unsupported
    | some _ => unsupported
  | _ => unsupported

class SettingsHost (σ : Type) where
  store : UInt32 → Float → σ → Except SettingsError Unit × σ
  list : σ → σ

/-- Executes a `$` line.  A value that the store rejects makes the statement unsupported. -/
def executeSettings {σ : Type} [SettingsHost σ] (line : List Char) (settings : σ) :
    Except LineError Unit × σ :=
  match SettingsStatement.parse line with
  | .error error => (.error error, settings)
  | .ok .list => (.ok (), SettingsHost.list settings)
  | .ok (.store index value) =>
    let (stored, settings) := SettingsHost.store index value settings
    match stored with
    | .ok () => (.ok (), settings)
    | .error _ => (.error (.unsupportedStatement (String.ofList line)), settings)

end Gcode
