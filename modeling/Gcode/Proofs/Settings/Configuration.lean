import Gcode.Proofs.Settings.Persistence
import Gcode.Settings.Config

/-!
# Configuration files

A configuration that was saved is loaded again as it was (`Config.load_after_save`).  Saving checks
the configuration and finds the format before it touches a file; only then directories are made and
the file is written.  `Config.saveRun` says what is left of the files at each of these steps.
-/

namespace Gcode

/-! ## Runs on a file system -/

/-- A run on a file system: its result, and the files that it leaves also where it fails. -/
abbrev FileRun := ExceptT SettingsError (StateM FileSystem)

namespace FileRun

def operation (failing : FileSystem → FileSystem) (operate : FileSystem → Option FileSystem) :
    FileRun Unit := fun files =>
  match operate files with
  | none => (.error .io, failing files)
  | some after => (.ok (), after)

def writeWithParents (failing : FileSystem → FileSystem) (path : Path) (text : String) :
    FileRun Unit := do
  operation failing fun files =>
    if path.fits then files.makeDirectories (FileSystem.origin path) path.names.dropLast else none
  operation failing fun files => files.write? path text

variable (failing : FileSystem → FileSystem) (files : FileSystem)

theorem operation_bind (operate : FileSystem → Option FileSystem) (next : FileRun Unit) :
    (operation failing operate >>= fun _ => next) files =
      match operate files with
      | none => (.error .io, failing files)
      | some after => next after := by
  have hstep : operation failing operate files =
      match operate files with
      | none => (.error .io, failing files)
      | some after => (.ok (), after) := rfl
  simp only [bind, ExceptT.bind, ExceptT.mk, StateT.bind, hstep]
  cases operate files <;> rfl

theorem writeWithParents_eq (path : Path) (text : String) :
    ∃ left, writeWithParents failing path text files =
      match files.writeWithParents? path text with
      | none => (.error .io, left)
      | some after => (.ok (), after) := by
  rw [writeWithParents, operation_bind, FileSystem.writeWithParents?]
  by_cases hfits : path.fits = true
  · simp only [if_pos hfits]
    cases files.makeDirectories (FileSystem.origin path) path.names.dropLast with
    | none => exact ⟨failing files, rfl⟩
    | some made => exact ⟨failing made, rfl⟩
  · simp only [if_neg hfits]
    exact ⟨failing files, rfl⟩

end FileRun

namespace Config

/-! ## Valid configurations -/

structure IsValid (config : Config) : Prop where
  isFinite : config.mmPerInch.isFinite = true
  positive : 0 < config.mmPerInch
  machine : config.machine.IsValid

theorem validate_eq_ok_iff {config : Config} :
    config.validate = .ok () ↔ config.IsValid := by
  unfold validate
  split
  · next hscale =>
      obtain ⟨hfinite, hpositive⟩ := Bool.and_eq_true_iff.1 hscale
      rw [SettingsTable.validate_eq_ok_iff]
      exact ⟨fun h => ⟨hfinite, by simpa using hpositive, h⟩, fun h => h.machine⟩
  · next hscale =>
      refine ⟨fun h => by contradiction, fun h => absurd ?_ hscale⟩
      simp [h.isFinite, h.positive]

theorem isValid_standard : Config.standard.IsValid :=
  ⟨by decide +kernel, by decide +kernel, SettingsTable.isValid_standard⟩

theorem isValid_of_load {files : FileSystem} {path : Path} {config : Config}
    (loaded : Config.load files path = .ok config) : config.IsValid := by
  obtain ⟨read, -, hchecked⟩ := bind_eq_ok_iff.1 loaded
  obtain ⟨checked, hvalidate, hsame⟩ := bind_eq_ok_iff.1 hchecked
  obtain rfl := Except.ok.inj hsame
  exact validate_eq_ok_iff.1 hvalidate

/-! ## Saving -/

/-- Saves a configuration, one step after the other. -/
def saveRun (failing : FileSystem → FileSystem) (config : Config) (path : Path) : FileRun Unit := do
  MonadExcept.ofExcept config.validate
  let format ← MonadExcept.ofExcept (FileFormat.ofPath path)
  FileRun.writeWithParents failing path (String.ofList (format.write config.toDocument))

variable {config : Config} {files after : FileSystem} {path : Path} {error : SettingsError}
  (failing : FileSystem → FileSystem)

theorem save_of_valid (hvalid : config.validate = .ok ()) :
    config.save files path = saveDocument files path config.toDocument := by
  rw [save, hvalid]
  rfl

theorem save_of_invalid (hinvalid : config.validate = .error error) :
    config.save files path = .error error := by
  rw [save, hinvalid]
  rfl

theorem save_of_unsupported (hvalid : config.validate = .ok ())
    (hformat : FileFormat.ofPath path = .error error) :
    config.save files path = .error error := by
  rw [save_of_valid hvalid, saveDocument, hformat]

theorem saveRun_of_invalid (hinvalid : config.validate = .error error) :
    config.saveRun failing path files = (.error error, files) := by
  rw [saveRun, hinvalid]
  rfl

theorem saveRun_of_unsupported (hvalid : config.validate = .ok ())
    (hformat : FileFormat.ofPath path = .error error) :
    config.saveRun failing path files = (.error error, files) := by
  rw [saveRun, hvalid, hformat]
  rfl

theorem saveRun_of_format {format : FileFormat} (hvalid : config.validate = .ok ())
    (hformat : FileFormat.ofPath path = .ok format) :
    config.saveRun failing path files =
      FileRun.writeWithParents failing path (String.ofList (format.write config.toDocument))
        files := by
  rw [saveRun, hvalid, hformat]
  rfl

theorem saveRun_eq (config : Config) (files : FileSystem) (path : Path) :
    ∃ left, config.saveRun failing path files =
      match config.save files path with
      | .error error => (.error error, left)
      | .ok after => (.ok (), after) := by
  cases hvalid : config.validate with
  | error error =>
      rw [save_of_invalid hvalid]
      exact ⟨files, saveRun_of_invalid failing hvalid⟩
  | ok checked =>
      cases hformat : FileFormat.ofPath path with
      | error error =>
          rw [save_of_unsupported hvalid hformat]
          exact ⟨files, saveRun_of_unsupported failing hvalid hformat⟩
      | ok format =>
          let text := String.ofList (format.write config.toDocument)
          obtain ⟨left, hwrite⟩ := FileRun.writeWithParents_eq failing files path text
          refine ⟨left, ?_⟩
          rw [saveRun_of_format failing hvalid hformat, hwrite, save_of_valid hvalid]
          simp only [saveDocument, hformat]
          cases files.writeWithParents? path text <;> rfl

theorem saveRun_of_saved (hsaved : config.save files path = .ok after) :
    config.saveRun failing path files = (.ok (), after) := by
  obtain ⟨left, hrun⟩ := saveRun_eq failing config files path
  rw [hrun, hsaved]

/-! ## Configurations in documents -/

def doubles (config : Config) : List Float := config.mmPerInch :: config.machine.doubles

theorem IsValid.isFinite_of_mem_doubles (valid : config.IsValid) {value : Float}
    (h : value ∈ config.doubles) : value.isFinite = true := by
  rcases List.mem_cons.1 h with rfl | h
  · exact valid.isFinite
  · exact valid.machine.isFinite_of_mem_doubles h

theorem ofDocument?_toDocument (surplus : Document.Surplus) (config : Config) :
    ofDocument? surplus config.toDocument = some config := by
  have hfields : config.toDocument.fields? surplus fieldNames =
      some [some (.float config.mmPerInch), config.settingsFile.map .text,
        some config.machine.toDocument] := by
    cases hfile : config.settingsFile <;>
      simp [toDocument, Document.record, Document.fields?, fieldNames, Document.entry?, hfile]
  have hfile : (config.settingsFile.map Document.text).elim (some none) settingsFile? =
      some config.settingsFile := by
    cases config.settingsFile <;> rfl
  have hmachine := SettingsTable.ofDocument?_toDocument surplus config.machine
  rw [ofDocument?, hfields]
  simp only [Option.bind_eq_bind, Option.bind_some, Option.elim_some, Document.float?, hfile,
    hmachine]
  rfl

theorem isKept_toDocument (hdoubles : ∀ value ∈ config.doubles, Json.ReadsBack value) :
    Json.IsKept config.toDocument := by
  obtain ⟨hscale, hmachine⟩ := List.forall_mem_cons.1 hdoubles
  have htable := SettingsTable.isKept_toDocument hmachine
  rw [toDocument]
  cases config.settingsFile with
  | none => exact ⟨hscale, htable, trivial⟩
  | some file => exact ⟨hscale, trivial, htable, trivial⟩

theorem toDocument_eq {entries : List (List Char × Document)}
    (htable : config.machine.toDocument = .table entries) :
    config.toDocument =
      .table (([("mm_per_inch".toList, .float config.mmPerInch)] ++
        (config.settingsFile.map fun path => ("settings_file".toList, .text path)).toList) ++
          Toml.sectionEntries [("machine".toList, entries)]) := by
  rw [toDocument, Document.record, htable]
  cases config.settingsFile <;> rfl

theorem arePlain_entries (settingsFile : Option Path) {mmPerInch : Float}
    (hscale : Toml.ReadsBack mmPerInch) :
    Toml.ArePlain ([("mm_per_inch".toList, .float mmPerInch)] ++
      (settingsFile.map fun path => ("settings_file".toList, .text path)).toList) := by
  have hnumber : Toml.IsPlain (.float mmPerInch) := .number (.float hscale)
  cases settingsFile with
  | none => exact ⟨by simp [Toml.IsBareKey, Toml.isBareKeyChar], by simpa using hnumber, by simp⟩
  | some path =>
      exact ⟨by simp [Toml.IsBareKey, Toml.isBareKeyChar],
        by simpa using ⟨hnumber, .text path⟩, by simp⟩

theorem read?_toDocument {format : FileFormat}
    (hdoubles : ∀ value ∈ config.doubles, format.ReadsBack value) :
    format.read? (format.write config.toDocument) = some config.toDocument := by
  cases format with
  | json => exact Json.read?_write .indented (isKept_toDocument hdoubles)
  | toml =>
    obtain ⟨hscale, hmachine⟩ := List.forall_mem_cons.1 hdoubles
    obtain ⟨entries, htable, hentries⟩ := SettingsTable.exists_arePlain_toDocument hmachine
    have hplain := arePlain_entries config.settingsFile hscale
    have hsections : Toml.AreSections [("machine".toList, entries)] :=
      ⟨by simp [Toml.IsBareKey, Toml.isBareKeyChar], by simpa using hentries, by simp⟩
    change Toml.read? (Toml.write config.toDocument) = some config.toDocument
    rw [toDocument_eq htable]
    refine Toml.read?_write hplain hsections ?_
    cases config.settingsFile <;> simp

/-! ## Saving and loading -/

def IsStorable (config : Config) (path : Path) : Prop :=
  config.validate = .ok () ∧ ∃ format, FileFormat.ofPath path = .ok format

theorem save_of_not_isStorable (h : ¬ config.IsStorable path) (files : FileSystem) :
    ∃ error, config.save files path = .error error ∧
      ∀ failing, config.saveRun failing path files = (.error error, files) := by
  cases hvalid : config.validate with
  | error error =>
      exact ⟨error, save_of_invalid hvalid, fun failing => saveRun_of_invalid failing hvalid⟩
  | ok checked =>
      cases hformat : FileFormat.ofPath path with
      | error error =>
          exact ⟨error, save_of_unsupported hvalid hformat,
            fun failing => saveRun_of_unsupported failing hvalid hformat⟩
      | ok format => exact absurd ⟨hvalid, format, hformat⟩ h

theorem load_of_read? {format : FileFormat} (hvalid : config.validate = .ok ())
    (hformat : FileFormat.ofPath path = .ok format)
    (hread : files.read? path = some (String.ofList (format.write config.toDocument)))
    (hdoubles : ∀ value ∈ config.doubles, format.ReadsBack value) :
    load files path = .ok config := by
  have hloaded := loadDocument_of_read? hformat hread (read?_toDocument hdoubles)
    (ofDocument?_toDocument format.surplus config)
  rw [load, hloaded]
  change (config.validate >>= fun _ => pure config) = _
  rw [hvalid]
  rfl

/-- A configuration file is written only for a valid configuration in a known format, and then holds
it; a failed attempt leaves all files as they were.  Whatever a file holds, what is loaded is valid.
-/
theorem load_after_save
    (hwritable : ∀ text, (files.writeWithParents? path text).isSome = true)
    (hdoubles : ∀ format, FileFormat.ofPath path = .ok format →
      ∀ value ∈ config.doubles, value.isFinite = true → format.ReadsBack value) :
    ((∃ after, config.save files path = .ok after) ↔
      config.validate = .ok () ∧
        (path.extension? = some "json".toList ∨ path.extension? = some "toml".toList)) ∧
    (∀ after, config.save files path = .ok after →
      (∀ failing, config.saveRun failing path files = (.ok (), after)) ∧
        load after path = .ok config) ∧
    (∀ error, config.save files path = .error error →
      ∀ failing, config.saveRun failing path files = (.error error, files)) ∧
    ∀ others other loaded, load others other = .ok loaded → loaded.validate = .ok () := by
  have hchecked : ∀ others other loaded, load others other = .ok loaded →
      loaded.validate = .ok () :=
    fun others other loaded hloaded => validate_eq_ok_iff.2 (isValid_of_load hloaded)
  by_cases hstorable : config.IsStorable path
  · obtain ⟨hvalid, format, hformat⟩ := hstorable
    obtain ⟨after, hsaved, -, hread⟩ :=
      saveDocument_of_isWritable hformat hwritable config.toDocument
    rw [← save_of_valid hvalid] at hsaved
    have hloaded : load after path = .ok config :=
      load_of_read? hvalid hformat hread fun value hvalue => hdoubles format hformat value hvalue
        ((validate_eq_ok_iff.1 hvalid).isFinite_of_mem_doubles hvalue)
    refine ⟨iff_of_true ⟨after, hsaved⟩ ⟨hvalid, FileFormat.exists_ofPath_iff.1 ⟨format, hformat⟩⟩,
      ?_, ?_, hchecked⟩
    · intro other hother
      obtain rfl := Except.ok.inj (hsaved.symm.trans hother)
      exact ⟨fun failing => saveRun_of_saved failing hsaved, hloaded⟩
    · intro error hfailed
      rw [hsaved] at hfailed
      contradiction
  · obtain ⟨error, hfailed, hrun⟩ := save_of_not_isStorable hstorable files
    have hunsaved (after : FileSystem) : config.save files path ≠ .ok after := by
      rw [hfailed]
      nofun
    refine ⟨iff_of_false (fun ⟨after, hsaved⟩ => hunsaved after hsaved)
      fun ⟨hvalid, hextension⟩ => hstorable ⟨hvalid, FileFormat.exists_ofPath_iff.2 hextension⟩,
      fun after hsaved => absurd hsaved (hunsaved after), ?_, hchecked⟩
    intro other hother
    obtain rfl := Except.error.inj (hfailed.symm.trans hother)
    exact hrun

theorem load_after_save_quotedName :
    let path : Path := "conf/m.toml".toList
    let config : Config := { standard with settingsFile := some "it's \"a\\b\".json\x07".toList }
    ∃ after, config.save .empty path = .ok after ∧ load after path = .ok config := by
  intro path config
  have hdoubles : ∀ format, FileFormat.ofPath path = .ok format →
      ∀ value ∈ config.doubles, value.isFinite = true → format.ReadsBack value := by
    intro format hformat
    obtain rfl : FileFormat.toml = format := Except.ok.inj hformat
    change ∀ value ∈ [25.4, 400, 400, 400, 480, 480, 0.1], _ → Toml.ReadsBack value
    simp only [List.forall_mem_cons]
    exact ⟨fun _ => rfl, fun _ => rfl, fun _ => rfl, fun _ => rfl, fun _ => rfl, fun _ => rfl,
      fun _ => rfl, by simp⟩
  have hwritable : ∀ text, (FileSystem.empty.writeWithParents? path text).isSome = true :=
    fun _ => rfl
  have hvalid : config.IsValid :=
    ⟨by decide +kernel, by decide +kernel, SettingsTable.isValid_standard⟩
  obtain ⟨hsaves, hloads, -, -⟩ := load_after_save hwritable hdoubles
  obtain ⟨after, hsaved⟩ := hsaves.2 ⟨validate_eq_ok_iff.2 hvalid, .inr rfl⟩
  exact ⟨after, hsaved, (hloads after hsaved).2⟩

end Config

end Gcode
