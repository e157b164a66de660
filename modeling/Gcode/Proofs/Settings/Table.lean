import Gcode.Settings.Table

/-!
# Valid settings tables

A table is valid if each of its values obeys the rule of its setting, and that is what setting all
of them once more finds out.  Every accepted change keeps a valid table valid, because a value is
checked by the same rule before it is stored; a byte obeys its rule whatever it is.  What a change
does depends on the table only outside the changed setting, so making it again does nothing more.
-/

namespace Gcode

theorem bind_eq_ok_iff {ε α β : Type} {result : Except ε α} {next : α → Except ε β} {value : β} :
    (result >>= next) = .ok value ↔ ∃ between, result = .ok between ∧ next between = .ok value := by
  cases result <;> simp [bind, Except.bind]

theorem forM_eq_ok_iff {α ε : Type} {check : α → Except ε Unit} (items : List α) :
    items.forM check = .ok () ↔ ∀ item ∈ items, check item = .ok () := by
  induction items with
  | nil => simp [pure, Except.pure]
  | cons item items ih =>
      rw [List.forall_mem_cons, ← ih]
      change (check item >>= fun _ => items.forM check) = .ok () ↔ _
      rw [bind_eq_ok_iff]
      exact ⟨fun ⟨_, hitem, hitems⟩ => ⟨hitem, hitems⟩, fun ⟨hitem, hitems⟩ => ⟨_, hitem, hitems⟩⟩

theorem Setting.mem_all (setting : Setting) : setting ∈ Setting.all := by
  cases setting with
  | stepsPerMm axis => cases axis <;> simp [Setting.all]
  | _ => simp [Setting.all]

def Setting.complaint? (setting : Setting) (value : Float) : Option Complaint :=
  if value.isFinite then setting.finiteComplaint? value else some .notFinite

theorem Setting.complaint?_eq_none_iff {setting : Setting} {value : Float} :
    setting.complaint? value = none ↔
      value.isFinite = true ∧ setting.finiteComplaint? value = none := by
  unfold complaint?
  split
  · next hfinite => simp [hfinite]
  · next hfinite => simp [hfinite]

theorem isFinite_toFloat_byte (byte : UInt8) :
    byte.toFloat.isFinite = true ∧ (0 ≤ byte.toFloat && byte.toFloat < 256) = true := by
  have hall : ∀ number : Fin 256, (UInt8.ofNat number).toFloat.isFinite = true ∧
      (0 ≤ (UInt8.ofNat number).toFloat && (UInt8.ofNat number).toFloat < 256) = true := by
    decide +kernel
  have hbyte := hall ⟨byte.toNat, byte.toNat_lt⟩
  simpa using hbyte

namespace SettingsTable

def checkValue (setting : Setting) (value : Float) : Except SettingsError Unit :=
  match setting.complaint? value with
  | some complaint => .error (.invalidValue setting.index value complaint)
  | none => .ok ()

theorem checkValue_eq_ok_iff {setting : Setting} {value : Float} :
    checkValue setting value = .ok () ↔ setting.complaint? value = none := by
  unfold checkValue
  cases setting.complaint? value <;> simp

theorem replay_index (table scratch : SettingsTable) (setting : Setting) :
    table.replay scratch setting.index =
      checkValue setting (table.value setting) >>= fun _ =>
        .ok (scratch.put setting (table.value setting)) := by
  simp only [replay, get?, set, Setting.ofIndex?_index, Option.map_some, checkValue,
    Setting.complaint?]
  split
  · cases setting.finiteComplaint? (table.value setting) <;> rfl
  · rfl

theorem foldlM_replay (table scratch : SettingsTable) (settings : List Setting) :
    ((settings.map Setting.index).foldlM table.replay scratch >>= fun _ => pure ()) =
      settings.forM fun setting => checkValue setting (table.value setting) := by
  induction settings generalizing scratch with
  | nil => rfl
  | cons setting settings ih =>
      rw [List.map_cons, List.foldlM_cons, replay_index]
      change _ = (checkValue setting (table.value setting) >>= fun _ => settings.forM _)
      cases checkValue setting (table.value setting) with
      | error error => rfl
      | ok checked => exact ih _

theorem validate_eq_forM (table : SettingsTable) :
    table.validate = Setting.all.forM fun setting => checkValue setting (table.value setting) :=
  foldlM_replay table table Setting.all

def IsValid (table : SettingsTable) : Prop :=
  ∀ setting, Setting.complaint? setting (table.value setting) = none

theorem validate_eq_ok_iff {table : SettingsTable} : table.validate = .ok () ↔ table.IsValid := by
  rw [validate_eq_forM, forM_eq_ok_iff]
  exact ⟨fun hchecked setting => checkValue_eq_ok_iff.1 (hchecked setting setting.mem_all),
    fun hvalid setting _ => checkValue_eq_ok_iff.2 (hvalid setting)⟩

theorem IsValid.bounds {table : SettingsTable} (valid : table.IsValid) :
    (∀ axis, (table.stepsPerMm.get axis).isFinite = true ∧ 0 < table.stepsPerMm.get axis) ∧
      (table.mmPerArcSegment.isFinite = true ∧ 0 < table.mmPerArcSegment) ∧
      (table.defaultFeedRate.isFinite = true ∧ 0 ≤ table.defaultFeedRate) ∧
      (table.defaultSeekRate.isFinite = true ∧ 0 ≤ table.defaultSeekRate) := by
  have hrule := fun setting => Setting.complaint?_eq_none_iff.1 (valid setting)
  have hnone : ∀ {condition : Prop} [Decidable condition] {complaint : Complaint},
      (if condition then none else some complaint) = none → condition := by
    intro condition _ complaint h
    split at h
    · assumption
    · contradiction
  exact ⟨fun axis => ⟨(hrule (.stepsPerMm axis)).1, hnone (hrule (.stepsPerMm axis)).2⟩,
    ⟨(hrule .mmPerArcSegment).1, hnone (hrule .mmPerArcSegment).2⟩,
    ⟨(hrule .defaultFeedRate).1, hnone (hrule .defaultFeedRate).2⟩,
    ⟨(hrule .defaultSeekRate).1, hnone (hrule .defaultSeekRate).2⟩⟩

theorem isValid_standard : standard.IsValid := by
  have hall : ∀ setting ∈ Setting.all,
      Setting.complaint? setting (standard.value setting) = none := by decide +kernel
  exact fun setting => hall setting setting.mem_all

/-! ## Changing a setting -/

theorem value_put_of_ne (table : SettingsTable) {setting other : Setting}
    (different : other ≠ setting) (value : Float) :
    (table.put setting value).value other = table.value other := by
  cases setting <;> cases other <;> first | rfl | exact absurd rfl different | skip
  next axis otherAxis =>
    exact Point.get_set_of_ne _ (fun same => different (congrArg _ same)) _

theorem IsValid.put {table : SettingsTable} (valid : table.IsValid) {setting : Setting}
    {value : Float} (accepted : setting.complaint? value = none) :
    (table.put setting value).IsValid := by
  intro other
  by_cases hsame : other = setting
  · subst hsame
    cases other with
    | pulseMicroseconds | invertMask =>
        obtain ⟨hfinite, hbyte⟩ := isFinite_toFloat_byte (byteOf value)
        exact Setting.complaint?_eq_none_iff.2 ⟨hfinite, if_pos hbyte⟩
    | stepsPerMm axis =>
        rw [show (table.put (.stepsPerMm axis) value).value (.stepsPerMm axis) = value from
          Point.get_set_self _ _ _]
        exact accepted
    | defaultFeedRate | defaultSeekRate | mmPerArcSegment => exact accepted
  · rw [value_put_of_ne table hsame]
    exact valid other

theorem put_put (table : SettingsTable) (setting : Setting) (value : Float) :
    (table.put setting value).put setting value = table.put setting value := by
  cases setting with
  | stepsPerMm axis => cases axis <;> rfl
  | _ => rfl

theorem set_eq_ok_iff {table changed : SettingsTable} {index : UInt32} {value : Float} :
    table.set index value = .ok changed ↔
      ∃ setting, Setting.ofIndex? index = some setting ∧ setting.complaint? value = none ∧
        changed = table.put setting value := by
  unfold set Setting.complaint?
  by_cases hfinite : value.isFinite = true
  · rw [if_pos hfinite]
    simp only [if_pos hfinite]
    cases hsetting : Setting.ofIndex? index with
    | none => simp
    | some setting =>
        cases hcomplaint : setting.finiteComplaint? value with
        | none => simp [hcomplaint, eq_comm]
        | some complaint => simp [hcomplaint]
  · simp [hfinite]

theorem IsValid.set {table changed : SettingsTable} (valid : table.IsValid) {index : UInt32}
    {value : Float} (h : table.set index value = .ok changed) : changed.IsValid := by
  obtain ⟨setting, -, haccepted, rfl⟩ := set_eq_ok_iff.1 h
  exact valid.put haccepted

theorem set_again {table changed : SettingsTable} {index : UInt32} {value : Float}
    (h : table.set index value = .ok changed) : changed.set index value = .ok changed := by
  obtain ⟨setting, hsetting, haccepted, rfl⟩ := set_eq_ok_iff.1 h
  exact set_eq_ok_iff.2 ⟨setting, hsetting, haccepted, (put_put table setting value).symm⟩

end SettingsTable

end Gcode
