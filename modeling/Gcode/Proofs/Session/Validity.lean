import Gcode.CommandLine
import Gcode.Proofs.Program.Steps
import Gcode.Proofs.Session.Lines
import Gcode.Proofs.Settings.Configuration

/-!
# The settings of a running machine

However a session is started, its settings table is valid, and no line makes it invalid.  The length
of an inch is the configured one throughout, which is finite and positive.
-/

namespace Gcode

/-! ## Starting -/

theorem configFor_isValid {files : FileSystem} {configHome : Option Path} {options : Options}
    {config : Config} (h : configFor files configHome options = .ok config) : config.IsValid := by
  unfold configFor at h
  split at h
  · exact Config.isValid_of_load h
  · obtain rfl := Except.ok.inj h
    exact Config.isValid_standard

theorem settingsFor_isValid {files : FileSystem} {config : Config} (valid : config.IsValid)
    {settings : LiveSettings} (h : settingsFor files config = .ok settings) :
    settings.table.IsValid := by
  unfold settingsFor at h
  split at h
  · exact LiveSettings.isValid_of_openFile valid.machine h
  · obtain rfl := Except.ok.inj h
    exact valid.machine

theorem sessionFor_ok {files : FileSystem} {configHome : Option Path} {options : Options}
    {session : Session} (started : sessionFor files configHome options = .ok session) :
    ∃ config settings, configFor files configHome options = .ok config ∧
      settingsFor files config = .ok settings ∧
      session = .start config settings options.showTrace := by
  obtain ⟨config, hconfig, hrest⟩ := bind_eq_ok_iff.1 started
  obtain ⟨settings, hsettings, hsession⟩ := bind_eq_ok_iff.1 hrest
  exact ⟨config, settings, hconfig, hsettings, (Except.ok.inj hsession).symm⟩

/-! ## Running -/

theorem execute_isValid {settings : LiveSettings} (valid : settings.table.IsValid)
    (line : List Char) (state : ModalState) :
    (execute line state settings).settings.table.IsValid := by
  have heffect := execute_lineEffect line state settings
  generalize execute line state settings = outcome at heffect ⊢
  cases heffect with
  | comment | fault | impossible | success => exact valid
  | statement => exact executeSettings_isValid valid line

theorem executeProgram_isValid (lines : List (List Char)) (state : ModalState)
    {settings : LiveSettings} (valid : settings.table.IsValid) :
    (executeProgram lines state settings).settings.table.IsValid := by
  induction lines generalizing state settings with
  | nil => exact valid
  | cons line lines ih => exact ih _ (execute_isValid valid line state)

theorem mmPerInch_executeProgram (lines : List (List Char)) (state : ModalState)
    (settings : LiveSettings) :
    (executeProgram lines state settings).state.mmPerInch = state.mmPerInch :=
  (programSteps_invariant (P := fun current => current.mmPerInch = state.mmPerInch)
    (fun step before => step.mmPerInch_outcome.trans before) lines settings rfl).2

theorem sessionFor_after (files : FileSystem) (configHome : Option Path) (options : Options)
    (session : Session) (started : sessionFor files configHome options = .ok session)
    (raws : List (List Char)) :
    ∃ config, configFor files configHome options = .ok config ∧
      (config.mmPerInch.isFinite = true ∧ 0 < config.mmPerInch) ∧
      let current := session.after raws
      current.state.mmPerInch = config.mmPerInch ∧
        current.settings.table.validate = .ok () ∧
        (∀ axis, (current.settings.table.stepsPerMm.get axis).isFinite = true ∧
          0 < current.settings.table.stepsPerMm.get axis) ∧
        (current.settings.table.mmPerArcSegment.isFinite = true ∧
          0 < current.settings.table.mmPerArcSegment) ∧
        (current.settings.table.defaultFeedRate.isFinite = true ∧
          0 ≤ current.settings.table.defaultFeedRate) ∧
        (current.settings.table.defaultSeekRate.isFinite = true ∧
          0 ≤ current.settings.table.defaultSeekRate) := by
  obtain ⟨config, settings, hconfig, hsettings, rfl⟩ := sessionFor_ok started
  have hvalid := configFor_isValid hconfig
  have htable : ((Session.start config settings options.showTrace).after
      raws).settings.table.IsValid := by
    rw [Session.after_eq]
    exact executeProgram_isValid _ _ (settingsFor_isValid hvalid hsettings)
  refine ⟨config, hconfig, ⟨hvalid.isFinite, hvalid.positive⟩, ?_,
    SettingsTable.validate_eq_ok_iff.2 htable, htable.bounds⟩
  rw [Session.after_eq]
  exact mmPerInch_executeProgram _ _ _

theorem sessionFor_after_ownInch :
    let files : FileSystem :=
      ⟨[(Place.workingDirectory.child "c.json".toList, .file "\x7b\"mm_per_inch\": 25\x7d")]⟩
    let options : Options := { Options.initial with config := some "c.json".toList }
    ∃ session, sessionFor files none options = .ok session ∧
      let current := session.after ["$6=-1".toList, " $6 = 0.5".toList, "g20 x1".toList]
      current.settings.table.validate = .ok () ∧ current.state.mmPerInch = 25 := by
  intro files options
  have hok : (sessionFor files none options).isOk = true := by decide +kernel
  cases hsession : sessionFor files none options with
  | error error => simp [hsession, Except.isOk, Except.toBool] at hok
  | ok session =>
      obtain ⟨config, hconfig, -, hscale, hvalid, -⟩ := sessionFor_after files none options session
        hsession ["$6=-1".toList, " $6 = 0.5".toList, "g20 x1".toList]
      refine ⟨session, rfl, hvalid, hscale.trans ?_⟩
      have hmmPerInch : ((configFor files none options).toOption.map Config.mmPerInch) =
          some 25 := by decide +kernel
      simpa [hconfig, Except.toOption] using hmmPerInch

end Gcode
