import Gcode.Proofs.Settings.Table
import Gcode.Settings.Live

/-!
# What happens to live settings

A store is either rejected, and then nothing changes, or it changes the table and, if the settings
have a file that can be written, that file.  Listing changes neither.  `LiveSettings.perform` is
what a statement does to the settings, whether it comes from a line or not.
-/

namespace Gcode.LiveSettings

def filesWith (settings : LiveSettings) (table : SettingsTable) : FileSystem :=
  match settings.path with
  | none => settings.files
  | some path => (saveDocument settings.files path table.toDocument).toOption.getD settings.files

theorem store_cases (settings : LiveSettings) (index : UInt32) (value : Float) :
    (∃ error, settings.table.set index value = .error error ∧
      settings.store index value = (.error error, settings)) ∨
    (∃ table, settings.table.set index value = .ok table ∧
      settings.store index value =
        (.ok (), { settings with table, files := settings.filesWith table })) := by
  unfold store
  cases hset : settings.table.set index value with
  | error error => exact .inl ⟨error, rfl, rfl⟩
  | ok table =>
      refine .inr ⟨table, rfl, Prod.ext rfl ?_⟩
      obtain ⟨old, path, files, listing⟩ := settings
      cases path with
      | none => rfl
      | some path =>
          cases hsave : saveDocument files path table.toDocument <;>
            simp [save, filesWith, hsave, Except.toOption]

theorem store_again {settings : LiveSettings} {index : UInt32} {value : Float}
    (stored : (settings.store index value).1 = .ok ()) :
    ((settings.store index value).2.store index value).1 = .ok () ∧
      ((settings.store index value).2.store index value).2.table =
        (settings.store index value).2.table := by
  rcases settings.store_cases index value with ⟨error, -, hstore⟩ | ⟨table, hset, hstore⟩
  · rw [hstore] at stored
    contradiction
  · rw [hstore]
    rcases store_cases { settings with table, files := settings.filesWith table } index value with
      ⟨error, hagain, -⟩ | ⟨again, hagain, hstore⟩
    · rw [SettingsTable.set_again hset] at hagain
      contradiction
    · rw [SettingsTable.set_again hset] at hagain
      obtain rfl := Except.ok.inj hagain
      rw [hstore]
      exact ⟨rfl, rfl⟩

/-! ## Opening -/

theorem openFile_eq_ok_iff {files : FileSystem} {path : Path} {fallback : SettingsTable}
    {settings : LiveSettings} :
    openFile files path fallback = .ok settings ↔
      ∃ table, settings = { table, path := some path, files, listing := "" } ∧
        if files.contains path = true then
          loadDocument SettingsTable.ofDocument? files path = .ok table ∧ table.IsValid
        else table = fallback := by
  unfold openFile
  by_cases hcontains : files.contains path = true
  · simp only [if_pos hcontains, bind_eq_ok_iff]
    constructor
    · rintro ⟨table, hload, checked, hvalidate, hopened⟩
      obtain rfl := Except.ok.inj hopened
      exact ⟨table, rfl, hload, SettingsTable.validate_eq_ok_iff.1 hvalidate⟩
    · rintro ⟨table, rfl, hload, hvalid⟩
      exact ⟨table, hload, (), SettingsTable.validate_eq_ok_iff.2 hvalid, rfl⟩
  · simp [hcontains, pure, Except.pure, eq_comm]

theorem isValid_of_openFile {files : FileSystem} {path : Path} {fallback : SettingsTable}
    (valid : fallback.IsValid) {settings : LiveSettings}
    (opened : openFile files path fallback = .ok settings) : settings.table.IsValid := by
  obtain ⟨table, rfl, htable⟩ := openFile_eq_ok_iff.1 opened
  split at htable
  · exact htable.2
  · rw [htable]
    exact valid

/-! ## Statements -/

def perform (settings : LiveSettings) :
    SettingsStatement → Except SettingsError Unit × LiveSettings
  | .list => (.ok (), settings.list)
  | .store index value => settings.store index value

def performAll (settings : LiveSettings) (statements : List SettingsStatement) : LiveSettings :=
  statements.foldl (fun current statement => (current.perform statement).2) settings

theorem performAll_cons (settings : LiveSettings) (statement : SettingsStatement)
    (statements : List SettingsStatement) :
    settings.performAll (statement :: statements) =
      (settings.perform statement).2.performAll statements := rfl

theorem path_perform (settings : LiveSettings) (statement : SettingsStatement) :
    (settings.perform statement).2.path = settings.path := by
  cases statement with
  | list => rfl
  | store index value =>
      rcases settings.store_cases index value with ⟨error, -, hstore⟩ | ⟨table, -, hstore⟩ <;>
        rw [perform, hstore]

theorem perform_isValid {settings : LiveSettings} (valid : settings.table.IsValid)
    (statement : SettingsStatement) : (settings.perform statement).2.table.IsValid := by
  cases statement with
  | list => exact valid
  | store index value =>
      rcases settings.store_cases index value with ⟨error, -, hstore⟩ | ⟨table, hset, hstore⟩
      · rw [perform, hstore]
        exact valid
      · rw [perform, hstore]
        exact valid.set hset

end Gcode.LiveSettings

namespace Gcode

theorem executeSettings_cases (line : List Char) (settings : LiveSettings) :
    (∃ error, SettingsStatement.parse line = .error error ∧
      executeSettings line settings = (.error error, settings)) ∨
    (∃ statement, SettingsStatement.parse line = .ok statement ∧
      (executeSettings line settings).2 = (settings.perform statement).2 ∧
      ((executeSettings line settings).1 = .ok () ↔ (settings.perform statement).1 = .ok ())) := by
  unfold executeSettings
  cases SettingsStatement.parse line with
  | error error => exact .inl ⟨error, rfl, rfl⟩
  | ok statement =>
      refine .inr ⟨statement, rfl, ?_⟩
      cases statement with
      | list => exact ⟨rfl, fun _ => rfl, fun _ => rfl⟩
      | store index value =>
          rcases settings.store_cases index value with ⟨error, -, hstore⟩ | ⟨table, -, hstore⟩ <;>
            simp [SettingsHost.store, LiveSettings.perform, hstore]

theorem executeSettings_isValid {settings : LiveSettings} (valid : settings.table.IsValid)
    (line : List Char) : (executeSettings line settings).2.table.IsValid := by
  rcases executeSettings_cases line settings with ⟨error, -, hsame⟩ | ⟨statement, -, hafter, -⟩
  · rw [hsame]
    exact valid
  · rw [hafter]
    exact LiveSettings.perform_isValid valid statement

end Gcode
