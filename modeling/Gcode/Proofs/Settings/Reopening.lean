import Gcode.Proofs.Settings.Persistence

/-!
# What is left of a store

Settings are opened from any path where there is no file yet, but only a path with a known extension
is ever written.  So a store that is accepted is there when the file is opened again exactly if the
extension is known (`openFile_after_store`).
-/

namespace Gcode.LiveSettings

variable {path : Path} {settings : LiveSettings}

/-! ## Paths without a format -/

section

variable {error : SettingsError} (hformat : FileFormat.ofPath path = .error error)

include hformat

theorem files_perform_of_unsupported (hpath : settings.path = some path)
    (statement : SettingsStatement) : (settings.perform statement).2.files = settings.files := by
  cases statement with
  | list => rfl
  | store index value =>
      rcases settings.store_cases index value with ⟨error, -, hstore⟩ | ⟨table, -, hstore⟩
      · rw [perform, hstore]
      · rw [perform, hstore]
        simp only [filesWith, hpath, saveDocument, hformat]
        rfl

theorem contains_of_unsupported {files : FileSystem} {fallback : SettingsTable}
    (hopened : openFile files path fallback = .ok settings) : files.contains path = false := by
  cases hcontains : files.contains path with
  | false => rfl
  | true =>
      obtain ⟨table, rfl, htable⟩ := openFile_eq_ok_iff.1 hopened
      rw [if_pos hcontains, loadDocument, hformat] at htable
      exact absurd htable.1 (by simp)

end

/-! ## Runs of open settings -/

namespace IsOpen

theorem perform (h : settings.IsOpen path) (statement : SettingsStatement) :
    (settings.perform statement).2.IsOpen path := by
  refine ⟨(settings.path_perform statement).trans h.path_eq, ?_,
    perform_isValid h.valid statement⟩
  cases hformat : FileFormat.ofPath path with
  | error error =>
      rw [files_perform_of_unsupported hformat h.path_eq]
      exact h.writable
  | ok format =>
      by_cases hstores : settings.Stores statement
      · cases statement with
        | list => exact absurd hstores id
        | store index value => exact (h.store hformat hstores).2.1.writable
      · rw [(perform_of_not_stores hstores).2]
        exact h.writable

theorem performAll (h : settings.IsOpen path) (statements : List SettingsStatement) :
    (settings.performAll statements).IsOpen path := by
  induction statements generalizing settings with
  | nil => exact h
  | cons statement statements ih => exact ih (h.perform statement)

theorem files_performAll (h : settings.IsOpen path) {error : SettingsError}
    (hformat : FileFormat.ofPath path = .error error) (statements : List SettingsStatement) :
    (settings.performAll statements).files = settings.files := by
  induction statements generalizing settings with
  | nil => rfl
  | cons statement statements ih =>
      rw [performAll_cons, ih (h.perform statement),
        files_perform_of_unsupported hformat h.path_eq]

end IsOpen

/-- After a store that was accepted the file is there if it has a format, and holds the table: who
opens it again finds the table with the doubles that the format reads back.  A file without a format
was missing from the start and is never made, and who opens it again starts from a fallback. -/
theorem openFile_after_store {files : FileSystem} {fallback : SettingsTable}
    (hfallback : fallback.validate = .ok ()) (hopened : openFile files path fallback = .ok settings)
    (hwritable : ∀ text, (files.writeWithParents? path text).isSome = true)
    (earlier : List SettingsStatement) (index : UInt32) (value : Float)
    (hstored : ((settings.performAll earlier).store index value).1 = .ok ()) :
    let live := ((settings.performAll earlier).store index value).2
    let reopened (other : SettingsTable) := openFile live.files path other
    let opened (table : SettingsTable) : LiveSettings :=
      { table, path := some path, files := live.files, listing := "" }
    (∀ format, FileFormat.ofPath path = .ok format →
      live.files.contains path = true ∧
        ((∀ double ∈ live.table.doubles, format.ReadsBack double) →
          ∀ other, reopened other = .ok (opened live.table))) ∧
      ∀ error, FileFormat.ofPath path = .error error →
        live.files.contains path = false ∧ live.files = files ∧
          ∀ other, reopened other = .ok (opened other) := by
  intro live reopened opened
  obtain ⟨hopen, hfiles⟩ :=
    isOpen_of_openFile (SettingsTable.validate_eq_ok_iff.1 hfallback) hopened hwritable
  have hcurrent := hopen.performAll earlier
  constructor
  · intro format hformat
    obtain ⟨-, hlive, hread⟩ := hcurrent.store hformat hstored
    have hcontains : live.files.contains path = true := FileSystem.contains_of_read? hread
    refine ⟨hcontains, fun hdoubles other => openFile_eq_ok_iff.2 ⟨live.table, rfl, ?_⟩⟩
    rw [if_pos hcontains]
    exact ⟨loadDocument_table hformat hread hdoubles, hlive.valid⟩
  · intro error hformat
    have hunwritten : live.files = files :=
      calc live.files
        _ = (settings.performAll earlier).files :=
            files_perform_of_unsupported hformat hcurrent.path_eq (.store index value)
        _ = settings.files := hopen.files_performAll hformat earlier
        _ = files := hfiles
    have hmissing : live.files.contains path = false :=
      hunwritten ▸ contains_of_unsupported hformat hopened
    refine ⟨hmissing, hunwritten, fun other => openFile_eq_ok_iff.2 ⟨other, rfl, ?_⟩⟩
    rw [if_neg (by simp [hmissing])]

theorem openFile_after_store_newFile :
    let path : Path := "conf/m.json".toList
    let settings : LiveSettings := ⟨.standard, some path, .empty, ""⟩
    let live := ((settings.performAll [.store 0 250]).store 4 900).2
    openFile .empty path .standard = .ok settings ∧
      ((settings.performAll [.store 0 250]).store 4 900).1 = .ok () ∧
      live.files.contains path = true ∧
      openFile live.files path .standard = .ok { live with listing := "" } ∧
      live.table.stepsPerMm = ⟨250, 400, 400⟩ ∧ live.table.defaultFeedRate = 900 := by
  intro path settings live
  have hmissing : FileSystem.empty.contains path ≠ true := by decide +kernel
  have hopened : openFile .empty path .standard = .ok settings :=
    openFile_eq_ok_iff.2 ⟨_, rfl, by rw [if_neg hmissing]⟩
  obtain ⟨hcontains, hreopened⟩ := (openFile_after_store
    (SettingsTable.validate_eq_ok_iff.2 SettingsTable.isValid_standard) hopened (fun _ => rfl)
    [.store 0 250] 4 900 rfl).1 .json rfl
  have hdoubles : ∀ double ∈ live.table.doubles, FileFormat.json.ReadsBack double := by
    change ∀ double ∈ [250, 400, 400, 900, 480, 0.1], FileFormat.json.ReadsBack double
    simp only [List.forall_mem_cons]
    exact ⟨rfl, rfl, rfl, rfl, rfl, rfl, by simp⟩
  exact ⟨hopened, rfl, hcontains, hreopened hdoubles .standard, rfl, rfl⟩

/-- A store that is accepted and lost: a file without a known extension is opened while it is
missing, and never written. -/
theorem openFile_forgetsStore :
    let path : Path := "s.ini".toList
    let settings : LiveSettings := ⟨.standard, some path, .empty, ""⟩
    let live := (settings.store 4 900).2
    openFile .empty path .standard = .ok settings ∧
      (∀ text, (FileSystem.empty.writeWithParents? path text).isSome = true) ∧
      (settings.store 4 900).1 = .ok () ∧ live.table.defaultFeedRate = 900 ∧
      live.files.contains path = false ∧
      openFile live.files path .standard = .ok settings ∧ settings.table.defaultFeedRate = 480 := by
  intro path settings live
  have hmissing : FileSystem.empty.contains path ≠ true := by decide +kernel
  have hopened : openFile .empty path .standard = .ok settings :=
    openFile_eq_ok_iff.2 ⟨_, rfl, by rw [if_neg hmissing]⟩
  have hfiles : live.files = .empty := rfl
  refine ⟨hopened, fun _ => rfl, rfl, rfl, ?_, ?_, rfl⟩
  · rw [hfiles]
    simpa using hmissing
  · rw [hfiles]
    exact hopened

end Gcode.LiveSettings
