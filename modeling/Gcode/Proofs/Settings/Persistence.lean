import Gcode.Proofs.Document.Json
import Gcode.Proofs.Document.Toml
import Gcode.Proofs.Settings.Live
import Gcode.Proofs.Storage.FileSystem

/-!
# The settings file follows the table

Opened settings and their file never drift apart.  What is written of a table is read back, if its
doubles are, and a file that was written can be written again; so while a machine runs, the file
holds the table, except before the first accepted store into a file that was not there.
-/

namespace Gcode

def FileFormat.ReadsBack : FileFormat → Float → Prop
  | json => Json.ReadsBack
  | toml => Toml.ReadsBack

/-! ## Tables in documents -/

namespace SettingsTable

def doubles (table : SettingsTable) : List Float :=
  table.stepsPerMm.toList ++
    [table.defaultFeedRate, table.defaultSeekRate, table.mmPerArcSegment]

theorem IsValid.isFinite_of_mem_doubles {table : SettingsTable} (valid : table.IsValid)
    {value : Float} (h : value ∈ table.doubles) : value.isFinite = true := by
  have hfinite (setting : Setting) : (table.value setting).isFinite = true :=
    (Setting.complaint?_eq_none_iff.1 (valid setting)).1
  simp only [doubles, Point.toList, List.cons_append, List.nil_append, List.mem_cons,
    List.not_mem_nil, or_false] at h
  rcases h with rfl | rfl | rfl | rfl | rfl | rfl
  · exact hfinite (.stepsPerMm .x)
  · exact hfinite (.stepsPerMm .y)
  · exact hfinite (.stepsPerMm .z)
  · exact hfinite .defaultFeedRate
  · exact hfinite .defaultSeekRate
  · exact hfinite .mmPerArcSegment

theorem byte?_toNat (byte : UInt8) : byte? (.integer byte.toNat) = some byte := by
  have hbyte := byte.toNat_lt
  simp only [byte?]
  rw [if_pos (by omega)]
  simp

theorem ofDocument?_toDocument (surplus : Document.Surplus) (table : SettingsTable) :
    ofDocument? surplus table.toDocument = some table := by
  have hfields : table.toDocument.fields? surplus fieldNames =
      some [some (.list (table.stepsPerMm.toList.map .float)),
        some (.integer table.pulseMicroseconds.toNat), some (.float table.defaultFeedRate),
        some (.float table.defaultSeekRate), some (.float table.mmPerArcSegment),
        some (.integer table.invertMask.toNat)] := by
    simp [toDocument, Document.record, Document.fields?, fieldNames, Document.entry?]
  have hsteps : steps? surplus (.list (table.stepsPerMm.toList.map .float)) =
      some table.stepsPerMm := by
    simp [steps?, Point.toList, Document.float?]
  rw [ofDocument?, hfields]
  simp only [Option.bind_eq_bind, Option.bind_some, hsteps, Document.float?, byte?_toNat]
  rfl

theorem isKept_toDocument {table : SettingsTable}
    (hdoubles : ∀ value ∈ table.doubles, Json.ReadsBack value) : Json.IsKept table.toDocument := by
  simp only [doubles, Point.toList, List.cons_append, List.nil_append,
    List.forall_mem_cons] at hdoubles
  obtain ⟨hx, hy, hz, hfeed, hseek, hsegment, -⟩ := hdoubles
  have hpulse := table.pulseMicroseconds.toNat_lt
  have hmask := table.invertMask.toNat_lt
  refine ⟨⟨hx, hy, hz, trivial⟩, ⟨?_, ?_⟩, hfeed, hseek, hsegment, ⟨?_, ?_⟩, trivial⟩ <;> omega

theorem exists_arePlain_toDocument {table : SettingsTable}
    (hdoubles : ∀ value ∈ table.doubles, Toml.ReadsBack value) :
    ∃ entries, table.toDocument = .table entries ∧ Toml.ArePlain entries := by
  simp only [doubles, Point.toList, List.cons_append, List.nil_append,
    List.forall_mem_cons] at hdoubles
  obtain ⟨hx, hy, hz, hfeed, hseek, hsegment, -⟩ := hdoubles
  have hpulse := table.pulseMicroseconds.toNat_lt
  have hmask := table.invertMask.toNat_lt
  refine ⟨_, rfl, ?_, ?_, ?_⟩
  · simp [Toml.IsBareKey, Toml.isBareKeyChar]
  · simp only [List.map_cons, List.map_nil, List.forall_mem_cons]
    refine ⟨.list ?_, .number (.integer ?_ ?_), .number (.float hfeed), .number (.float hseek),
      .number (.float hsegment), .number (.integer ?_ ?_), by simp⟩
    · simp only [Point.toList, List.map_cons, List.map_nil, List.forall_mem_cons]
      exact ⟨.float hx, .float hy, .float hz, by simp⟩
    all_goals omega
  · simp

theorem read?_toDocument {format : FileFormat} {table : SettingsTable}
    (hdoubles : ∀ value ∈ table.doubles, format.ReadsBack value) :
    format.read? (format.write table.toDocument) = some table.toDocument := by
  cases format with
  | json => exact Json.read?_write .indented (isKept_toDocument hdoubles)
  | toml =>
    obtain ⟨entries, htable, hentries⟩ := exists_arePlain_toDocument hdoubles
    change Toml.read? (Toml.write table.toDocument) = some table.toDocument
    rw [htable]
    exact Toml.read?_write_plain hentries

theorem mem_doubles_put {table : SettingsTable} {setting : Setting} {value double : Float}
    (h : double ∈ (table.put setting value).doubles) : double = value ∨ double ∈ table.doubles := by
  cases setting with
  | stepsPerMm axis =>
      cases axis <;> simp only [put, doubles, Point.toList, Point.set] at h ⊢ <;> grind
  | _ =>
      simp only [put, doubles, Point.toList] at h ⊢
      grind

end SettingsTable

/-! ## Saving and loading -/

theorem saveDocument_of_isWritable {files : FileSystem} {path : Path} {format : FileFormat}
    (hformat : FileFormat.ofPath path = .ok format) (hwritable : files.IsWritable path)
    (document : Document) :
    ∃ after, saveDocument files path document = .ok after ∧ after.IsWritable path ∧
      after.read? path = some (String.ofList (format.write document)) := by
  obtain ⟨after, hafter⟩ :=
    Option.isSome_iff_exists.1 (hwritable (String.ofList (format.write document)))
  obtain ⟨hread, hagain⟩ := FileSystem.read?_of_writeWithParents? hafter
  exact ⟨after, by simp only [saveDocument, hformat, hafter], hagain, hread⟩

theorem loadDocument_of_read? {α : Type} {decode? : Document.Surplus → Document → Option α}
    {files : FileSystem} {path : Path} {format : FileFormat} {document : Document} {value : α}
    (hformat : FileFormat.ofPath path = .ok format)
    (hread : files.read? path = some (String.ofList (format.write document)))
    (hdocument : format.read? (format.write document) = some document)
    (hdecode : decode? format.surplus document = some value) :
    loadDocument decode? files path = .ok value := by
  simp only [loadDocument, hformat, hread, String.toList_ofList, hdocument, Option.bind_some,
    hdecode]

namespace LiveSettings

structure IsOpen (path : Path) (settings : LiveSettings) : Prop where
  path_eq : settings.path = some path
  writable : settings.files.IsWritable path
  valid : settings.table.IsValid

/-- Open settings whose file holds their table, if it is there. -/
structure InStep (format : FileFormat) (path : Path) (settings : LiveSettings) : Prop
    extends settings.IsOpen path where
  readsBack : ∀ value ∈ settings.table.doubles, format.ReadsBack value
  loads : settings.files.contains path = true →
    loadDocument SettingsTable.ofDocument? settings.files path = .ok settings.table

def Stores (settings : LiveSettings) : SettingsStatement → Prop
  | .list => False
  | .store index value => (settings.store index value).1 = .ok ()

def HasStored : LiveSettings → List SettingsStatement → Prop
  | _, [] => False
  | settings, statement :: statements =>
    settings.Stores statement ∨ (settings.perform statement).2.HasStored statements

variable {format : FileFormat} {path : Path} {settings : LiveSettings}

theorem perform_of_not_stores {statement : SettingsStatement} (h : ¬ settings.Stores statement) :
    (settings.perform statement).2.table = settings.table ∧
      (settings.perform statement).2.files = settings.files := by
  cases statement with
  | list => exact ⟨rfl, rfl⟩
  | store index value =>
      rcases settings.store_cases index value with ⟨error, -, hstore⟩ | ⟨table, -, hstore⟩
      · rw [perform, hstore]
        exact ⟨rfl, rfl⟩
      · exact absurd (by rw [Stores, hstore]) h

theorem IsOpen.store (h : settings.IsOpen path) (hformat : FileFormat.ofPath path = .ok format)
    {index : UInt32} {value : Float} (hstored : (settings.store index value).1 = .ok ()) :
    let next := (settings.store index value).2
    settings.table.set index value = .ok next.table ∧ next.IsOpen path ∧
      next.files.read? path = some (String.ofList (format.write next.table.toDocument)) := by
  intro next
  rcases settings.store_cases index value with ⟨error, -, hstore⟩ | ⟨table, hset, hstore⟩
  · rw [hstore] at hstored
    contradiction
  · obtain ⟨after, hsaved, hwritable, hread⟩ :=
      saveDocument_of_isWritable hformat h.writable table.toDocument
    have hfiles : settings.filesWith table = after := by
      simp [filesWith, h.path_eq, hsaved, Except.toOption]
    have hnext : next = { settings with table, files := after } := by
      rw [← hfiles]
      exact congrArg Prod.snd hstore
    rw [hnext]
    exact ⟨hset, ⟨h.path_eq, hwritable, h.valid.set hset⟩, hread⟩

theorem loadDocument_table {files : FileSystem} {table : SettingsTable}
    (hformat : FileFormat.ofPath path = .ok format)
    (hread : files.read? path = some (String.ofList (format.write table.toDocument)))
    (hdoubles : ∀ value ∈ table.doubles, format.ReadsBack value) :
    loadDocument SettingsTable.ofDocument? files path = .ok table :=
  loadDocument_of_read? hformat hread (SettingsTable.read?_toDocument hdoubles)
    (SettingsTable.ofDocument?_toDocument _ table)

namespace InStep

theorem perform_of_stores (hformat : FileFormat.ofPath path = .ok format)
    (h : settings.InStep format path) {statement : SettingsStatement}
    (hstores : settings.Stores statement)
    (hvalue : ∀ index value, statement = .store index value → value.isFinite = true →
      format.ReadsBack value) :
    (settings.perform statement).2.InStep format path ∧
      (settings.perform statement).2.files.contains path = true := by
  cases statement with
  | list => exact absurd hstores id
  | store index value =>
      obtain ⟨hset, hopen, hread⟩ := h.toIsOpen.store hformat hstores
      have hdoubles : ∀ double ∈ (settings.store index value).2.table.doubles,
          format.ReadsBack double := by
        obtain ⟨setting, -, haccepted, hput⟩ := SettingsTable.set_eq_ok_iff.1 hset
        have hfinite := (Setting.complaint?_eq_none_iff.1 haccepted).1
        rw [hput]
        intro double hdouble
        rcases SettingsTable.mem_doubles_put hdouble with rfl | hold
        · exact hvalue index double rfl hfinite
        · exact h.readsBack double hold
      exact ⟨⟨hopen, hdoubles, fun _ => loadDocument_table hformat hread hdoubles⟩,
        FileSystem.contains_of_read? hread⟩

theorem perform_of_not_stores (h : settings.InStep format path) {statement : SettingsStatement}
    (hstores : ¬ settings.Stores statement) :
    (settings.perform statement).2.InStep format path := by
  obtain ⟨htable, hfiles⟩ := LiveSettings.perform_of_not_stores hstores
  refine ⟨⟨(settings.path_perform statement).trans h.path_eq, ?_, ?_⟩, ?_, ?_⟩
  · rw [hfiles]; exact h.writable
  · rw [htable]; exact h.valid
  · rw [htable]; exact h.readsBack
  · rw [htable, hfiles]; exact h.loads

theorem performAll (hformat : FileFormat.ofPath path = .ok format)
    {statements : List SettingsStatement} (h : settings.InStep format path)
    (hvalues : ∀ index value, .store index value ∈ statements → value.isFinite = true →
      format.ReadsBack value) :
    (settings.performAll statements).InStep format path ∧
      ((settings.performAll statements).files.contains path = true ↔
        settings.files.contains path = true ∨ settings.HasStored statements) := by
  induction statements generalizing settings with
  | nil => exact ⟨h, by simp [LiveSettings.performAll, HasStored]⟩
  | cons statement statements ih =>
      have hrest : ∀ index value, .store index value ∈ statements → value.isFinite = true →
          format.ReadsBack value :=
        fun index value hmem => hvalues index value (List.mem_cons_of_mem _ hmem)
      -- once the file is there it holds the table, and until then nothing writes it but a store
      by_cases hstores : settings.Stores statement
      · obtain ⟨hnext, hcontains⟩ := h.perform_of_stores hformat hstores
          fun index value hstatement => hvalues index value (hstatement ▸ List.mem_cons_self)
        obtain ⟨hafter, hthere⟩ := ih hnext hrest
        simp only [hcontains, true_or, iff_true] at hthere
        exact ⟨hafter, by simp [performAll_cons, HasStored, hstores, hthere]⟩
      · obtain ⟨hafter, hthere⟩ := ih (h.perform_of_not_stores hstores) hrest
        rw [(LiveSettings.perform_of_not_stores hstores).2] at hthere
        exact ⟨hafter, by simpa [performAll_cons, HasStored, hstores] using hthere⟩

theorem openFile_again (h : settings.InStep format path) (other : SettingsTable) :
    openFile settings.files path other =
      .ok { table := if settings.files.contains path then settings.table else other
            path := some path, files := settings.files, listing := "" } := by
  refine openFile_eq_ok_iff.2 ⟨_, rfl, ?_⟩
  split
  · next hcontains => exact ⟨h.loads hcontains, h.valid⟩
  · rfl

end InStep

theorem isOpen_of_openFile {files : FileSystem} {fallback : SettingsTable}
    (hfallback : fallback.IsValid) (hopened : openFile files path fallback = .ok settings)
    (hwritable : files.IsWritable path) : settings.IsOpen path ∧ settings.files = files := by
  have hvalid := isValid_of_openFile hfallback hopened
  obtain ⟨table, rfl, -⟩ := openFile_eq_ok_iff.1 hopened
  exact ⟨⟨rfl, hwritable, hvalid⟩, rfl⟩

theorem inStep_of_openFile {files : FileSystem} {fallback : SettingsTable}
    (hfallback : fallback.IsValid) (hopened : openFile files path fallback = .ok settings)
    (hwritable : files.IsWritable path)
    (hdoubles : ∀ value ∈ settings.table.doubles, value.isFinite = true →
      format.ReadsBack value) :
    settings.InStep format path ∧ settings.files = files := by
  obtain ⟨hopen, hfiles⟩ := isOpen_of_openFile hfallback hopened hwritable
  have hreads : ∀ value ∈ settings.table.doubles, format.ReadsBack value := fun value hvalue =>
    hdoubles value hvalue (hopen.valid.isFinite_of_mem_doubles hvalue)
  refine ⟨⟨hopen, hreads, fun hcontains => ?_⟩, hfiles⟩
  obtain ⟨table, rfl, htable⟩ := openFile_eq_ok_iff.1 hopened
  rw [if_pos hcontains] at htable
  exact htable.1

/-- The settings file and the table never drift apart, from opening on and whatever is stored. -/
theorem file_follows_table {files : FileSystem} {fallback : SettingsTable}
    (hformat : FileFormat.ofPath path = .ok format) (hfallback : fallback.validate = .ok ())
    (hopened : openFile files path fallback = .ok settings)
    (hwritable : ∀ text, (files.writeWithParents? path text).isSome = true)
    (hdoubles : ∀ value ∈ settings.table.doubles, value.isFinite = true →
      format.ReadsBack value)
    (statements : List SettingsStatement)
    (hvalues : ∀ index value, .store index value ∈ statements → value.isFinite = true →
      format.ReadsBack value) :
    (∀ before statement after, statements = before ++ statement :: after →
      let current := settings.performAll before
      let next := (current.perform statement).2
      (current.Stores statement →
        loadDocument SettingsTable.ofDocument? next.files path = .ok next.table) ∧
      (¬ current.Stores statement → next.table = current.table ∧ next.files = current.files)) ∧
    (∀ before after other, statements = before ++ after →
      let current := settings.performAll before
      let opened (table : SettingsTable) : LiveSettings :=
        { table, path := some path, files := current.files, listing := "" }
      (files.contains path = true ∨ settings.HasStored before →
        openFile current.files path other = .ok (opened current.table)) ∧
      (¬ (files.contains path = true ∨ settings.HasStored before) →
        openFile current.files path other = .ok (opened other))) := by
  obtain ⟨hstart, hfiles⟩ :=
    inStep_of_openFile (SettingsTable.validate_eq_ok_iff.1 hfallback) hopened hwritable hdoubles
  constructor
  · rintro before statement after rfl current next
    obtain ⟨hcurrent, -⟩ := hstart.performAll hformat fun index value hmem =>
      hvalues index value (List.mem_append_left _ hmem)
    refine ⟨fun hstores => ?_, perform_of_not_stores⟩
    obtain ⟨hnext, hcontains⟩ := hcurrent.perform_of_stores hformat hstores
      fun index value hstatement =>
        hvalues index value (hstatement ▸ List.mem_append_right _ List.mem_cons_self)
    exact hnext.loads hcontains
  · rintro before after other rfl current opened
    obtain ⟨hcurrent, hcontains⟩ := hstart.performAll hformat fun index value hmem =>
      hvalues index value (List.mem_append_left _ hmem)
    rw [hfiles] at hcontains
    rw [hcurrent.openFile_again other, ← hcontains]
    exact ⟨fun hthere => by rw [if_pos hthere], fun hmissing => by rw [if_neg hmissing]⟩

theorem file_follows_table_newFile :
    let path : Path := "conf/m.json".toList
    let settings : LiveSettings := ⟨.standard, some path, .empty, ""⟩
    let first := settings.performAll [.store 0 250]
    let last := settings.performAll [.store 0 250, .store 6 (-1), .list]
    openFile .empty path .standard = .ok settings ∧
      loadDocument SettingsTable.ofDocument? first.files path = .ok first.table ∧
      first.table.stepsPerMm = ⟨250, 400, 400⟩ ∧ last.table = first.table ∧
      openFile last.files path .standard =
        .ok { table := last.table, path := some path, files := last.files, listing := "" } := by
  intro path settings first last
  have hformat : FileFormat.ofPath path = .ok .json := rfl
  have hmissing : FileSystem.empty.contains path ≠ true := by decide +kernel
  have hopened : openFile .empty path .standard = .ok settings :=
    openFile_eq_ok_iff.2 ⟨_, rfl, by rw [if_neg hmissing]⟩
  have hwritable : FileSystem.empty.IsWritable path := by
    intro text
    rfl
  have hdoubles : ∀ value ∈ settings.table.doubles, FileFormat.json.ReadsBack value := by
    have h400 : Json.ReadsBack 400 := rfl
    have h480 : Json.ReadsBack 480 := rfl
    have hsegment : Json.ReadsBack 0.1 := rfl
    simp only [settings, SettingsTable.doubles, SettingsTable.standard, Point.toList,
      Point.replicate, List.cons_append, List.nil_append, List.forall_mem_cons]
    exact ⟨h400, h400, h400, h480, h480, hsegment, by simp⟩
  have hvalues : ∀ index value, .store index value ∈
      ([.store 0 250, .store 6 (-1), .list] : List SettingsStatement) → value.isFinite = true →
      FileFormat.json.ReadsBack value := by
    intro index value hmem hfinite
    simp only [List.mem_cons, SettingsStatement.store.injEq, reduceCtorEq, List.not_mem_nil,
      or_false] at hmem
    rcases hmem with ⟨-, rfl⟩ | ⟨-, rfl⟩
    · exact (rfl : Json.ReadsBack 250)
    · exact (rfl : Json.ReadsBack (-1))
  obtain ⟨hperform, hopen⟩ := file_follows_table hformat
    (SettingsTable.validate_eq_ok_iff.2 SettingsTable.isValid_standard) hopened hwritable
    (fun value hvalue _ => hdoubles value hvalue) _ hvalues
  have hstored : settings.Stores (.store 0 250) := rfl
  have hrefused : ¬ first.Stores (.store 6 (-1)) := nofun
  refine ⟨hopened, (hperform [] _ _ rfl).1 hstored, rfl, ?_, ?_⟩
  · calc last.table
      _ = (first.perform (.store 6 (-1))).2.table := ((hperform [_, _] _ [] rfl).2 id).1
      _ = first.table := ((hperform [_] _ _ rfl).2 hrefused).1
  · exact (hopen _ [] .standard rfl).1 (.inr (.inl hstored))

end LiveSettings

end Gcode
