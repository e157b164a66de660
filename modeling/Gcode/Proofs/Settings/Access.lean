import Gcode.Proofs.Double.Value
import Gcode.Proofs.Settings.Live

/-!
# Reading and changing settings

`Accepts` is the range of values for each number, and `kept` is what a table keeps of a value.  A
change looks at nothing but the number and the value, so changes of different settings commute, and
a valid table takes each of its own values back.
-/

namespace Gcode

open Double

/-! ## Numbers of settings -/

namespace Setting

theorem ofIndex?_eq_some_iff {index : UInt32} {setting : Setting} :
    ofIndex? index = some setting ↔ setting.index = index := by
  constructor
  · intro h
    obtain ⟨hlt, hsetting⟩ := List.getElem?_eq_some_iff.1 h
    apply UInt32.toNat_inj.1
    have hall : ∀ (number : Nat) (h : number < all.length),
        (all[number]).index.toNat = number := by decide
    rw [← hsetting, hall]
  · rintro rfl
    exact ofIndex?_index setting

theorem isSome_ofIndex?_iff {index : UInt32} : (ofIndex? index).isSome = true ↔ index < 8 := by
  simp [ofIndex?, all, UInt32.lt_iff_toNat_lt]

theorem exists_index_eq_iff {index : UInt32} :
    (∃ setting : Setting, setting.index = index) ↔ index < 8 := by
  simp only [← isSome_ofIndex?_iff, Option.isSome_iff_exists, ofIndex?_eq_some_iff]

theorem ofIndex?_eq_none_iff {index : UInt32} : ofIndex? index = none ↔ 8 ≤ index := by
  rw [← UInt32.not_lt, ← isSome_ofIndex?_iff, Bool.not_eq_true, Option.isSome_eq_false_iff,
    Option.isNone_iff_eq_none]

theorem index_injective : Function.Injective index := fun first second h =>
  Option.some_inj.1 (by rw [← ofIndex?_index first, h, ofIndex?_index])

theorem isSome_describe?_iff {index : UInt32} : (describe? index).isSome = true ↔ index < 8 := by
  rw [describe?, Option.isSome_map, isSome_ofIndex?_iff]

end Setting

namespace SettingsTable

/-! ## Values of settings -/

def Accepts (index : UInt32) (value : Float) : Prop :=
  value.isFinite = true ∧
    ((index ≤ 2 ∨ index = 6) ∧ 0 < value ∨
      (index = 4 ∨ index = 5) ∧ 0 ≤ value ∨
      (index = 3 ∨ index = 7) ∧ 0 ≤ value ∧ value < 256)

def kept (index : UInt32) (value : Float) : Float :=
  if index = 3 ∨ index = 7 then (UInt8.ofNat ⌊exactValue value⌋₊).toFloat else value

theorem accepts_index_iff {setting : Setting} {value : Float} :
    Accepts setting.index value ↔ setting.complaint? value = none := by
  rw [Setting.complaint?_eq_none_iff, Accepts]
  refine and_congr_right fun _ => ?_
  cases setting with
  | stepsPerMm axis => cases axis <;> simp [Setting.index, Setting.finiteComplaint?]
  | _ => simp [Setting.index, Setting.finiteComplaint?]

theorem Accepts.index_lt {index : UInt32} {value : Float} (h : Accepts index value) :
    index < 8 := by
  rcases h.2 with ⟨hindex | rfl, -⟩ | ⟨rfl | rfl, -⟩ | ⟨rfl | rfl, -⟩
  · exact UInt32.lt_of_le_of_lt hindex (by decide)
  all_goals decide

theorem Accepts.of_byte {index : UInt32} {value : Float} (h : Accepts index value)
    (byte : index = 3 ∨ index = 7) : 0 ≤ value ∧ value < 256 := by
  rcases h.2 with ⟨hother, -⟩ | ⟨hother, -⟩ | ⟨-, hrange⟩
  · rcases byte with rfl | rfl <;> exact absurd hother (by decide)
  · rcases byte with rfl | rfl <;> exact absurd hother (by decide)
  · exact hrange

theorem accepts_iff {index : UInt32} {value : Float} :
    Accepts index value ↔
      ∃ setting, Setting.ofIndex? index = some setting ∧ setting.complaint? value = none := by
  constructor
  · intro h
    obtain ⟨setting, rfl⟩ := Setting.exists_index_eq_iff.2 h.index_lt
    exact ⟨setting, Setting.ofIndex?_index setting, accepts_index_iff.1 h⟩
  · rintro ⟨setting, hsetting, hnone⟩
    obtain rfl := Setting.ofIndex?_eq_some_iff.1 hsetting
    exact accepts_index_iff.2 hnone

theorem exists_accepts_iff {index : UInt32} : (∃ value, Accepts index value) ↔ index < 8 := by
  refine ⟨fun ⟨_, h⟩ => h.index_lt, fun h => ⟨1, ?_⟩⟩
  obtain ⟨setting, rfl⟩ := Setting.exists_index_eq_iff.2 h
  have hall : ∀ setting ∈ Setting.all, setting.complaint? 1 = none := by decide +kernel
  exact accepts_index_iff.2 (hall setting setting.mem_all)

/-! ## Bytes -/

theorem byteOf_toFloat (byte : UInt8) : byteOf byte.toFloat = byte := by
  have hall : ∀ number : Fin 256, byteOf (UInt8.ofNat number).toFloat = UInt8.ofNat number := by
    decide +kernel
  simpa using hall ⟨byte.toNat, byte.toNat_lt⟩

theorem exactValue_zero : exactValue 0 = 0 :=
  (exactValue_of_isNatural (by decide +kernel)).trans Nat.cast_zero

theorem exactValue_256 : exactValue 256 = 256 :=
  exactValue_of_isNatural (by decide +kernel)

theorem exactValue_mem_byte {value : Float} (finite : value.isFinite = true) (nonneg : 0 ≤ value)
    (small : value < 256) : 0 ≤ exactValue value ∧ ⌊exactValue value⌋₊ < 256 := by
  rw [le_iff (by decide +kernel) finite, exactValue_zero] at nonneg
  rw [lt_iff finite (by decide +kernel), exactValue_256] at small
  exact ⟨nonneg, (Nat.floor_lt nonneg).2 small⟩

theorem byteOf_eq {value : Float} (finite : value.isFinite = true) (nonneg : 0 ≤ value)
    (small : value < 256) : byteOf value = UInt8.ofNat ⌊exactValue value⌋₊ := by
  obtain ⟨hnonneg, hfloor⟩ := exactValue_mem_byte finite nonneg small
  rw [byteOf, truncateWithin_eq finite, truncation_of_nonneg hnonneg]
  congr 1
  omega

theorem exactValue_toFloat {number : Nat} (h : number < 256) :
    exactValue (UInt8.ofNat number).toFloat = number := by
  have hall : ∀ number : Fin 256,
      isNatural number (floatParts (UInt8.ofNat number).toFloat) = true := by
    decide +kernel
  exact exactValue_of_isNatural (hall ⟨number, h⟩)

theorem exactValue_kept {index : UInt32} {value : Float} (accepted : Accepts index value) :
    exactValue (kept index value) =
      if index = 3 ∨ index = 7 then (truncation (exactValue value) : ℚ) else exactValue value := by
  unfold kept
  split
  · next byte =>
      obtain ⟨nonneg, small⟩ := accepted.of_byte byte
      obtain ⟨hnonneg, hfloor⟩ := exactValue_mem_byte accepted.1 nonneg small
      rw [exactValue_toFloat hfloor, truncation_of_nonneg hnonneg, Int.cast_natCast]
  · rfl

/-! ## One setting -/

variable {table : SettingsTable} {index : UInt32} {value : Float}

theorem value_put_self (table : SettingsTable) {setting : Setting}
    (accepted : setting.complaint? value = none) :
    (table.put setting value).value setting = kept setting.index value := by
  rw [← accepts_index_iff] at accepted
  cases setting with
  | stepsPerMm axis => cases axis <;> rfl
  | pulseMicroseconds | invertMask =>
      obtain ⟨nonneg, small⟩ := accepted.of_byte (by decide)
      exact congrArg UInt8.toFloat (byteOf_eq accepted.1 nonneg small)
  | _ => rfl

theorem put_value (table : SettingsTable) (setting : Setting) :
    table.put setting (table.value setting) = table := by
  cases setting with
  | stepsPerMm axis => cases axis <;> rfl
  | pulseMicroseconds | invertMask => simp [put, value, byteOf_toFloat]
  | _ => rfl

theorem put_comm (table : SettingsTable) {first second : Setting} (different : first ≠ second)
    (value other : Float) :
    (table.put first value).put second other = (table.put second other).put first value := by
  cases first <;> cases second <;> first | rfl | exact absurd rfl different | skip
  next axis otherAxis =>
    cases axis <;> cases otherAxis <;> first | rfl | exact absurd rfl different

/-! ## Laws -/

/-- Changes a setting in place: a value that is not accepted leaves the table as it is. -/
def assign (table : SettingsTable) (index : UInt32) (value : Float) :
    Except SettingsError Unit × SettingsTable :=
  match table.set index value with
  | .error error => (.error error, table)
  | .ok changed => (.ok (), changed)

theorem exists_set_eq_error (rejected : ¬ Accepts index value) : ∃ error : SettingsError,
    (∀ number, error = .unknownSetting number ↔
      value.isFinite = true ∧ 8 ≤ index ∧ number = index) ∧
      ∀ table : SettingsTable, table.set index value = .error error := by
  rw [accepts_iff, not_exists] at rejected
  simp only [← Setting.ofIndex?_eq_none_iff, set]
  by_cases hfinite : value.isFinite = true
  · simp only [hfinite, if_true, true_and]
    cases hsetting : Setting.ofIndex? index with
    | none => exact ⟨.unknownSetting index, by simp [eq_comm], fun _ => rfl⟩
    | some setting =>
        cases hcomplaint : setting.finiteComplaint? value with
        | none =>
            exact absurd ⟨hsetting, Setting.complaint?_eq_none_iff.2 ⟨hfinite, hcomplaint⟩⟩
              (rejected setting)
        | some complaint =>
            refine ⟨.invalidValue index value complaint, by simp, fun _ => ?_⟩
            simp only [hcomplaint]
  · exact ⟨.invalidValue index value .notFinite, by simp [hfinite], fun _ => if_neg hfinite⟩

theorem assign_cases (index : UInt32) (value : Float) :
    (Accepts index value ∧ ∃ setting : Setting, setting.index = index ∧
      setting.complaint? value = none ∧
      ∀ table : SettingsTable, table.assign index value = (.ok (), table.put setting value)) ∨
    (¬ Accepts index value ∧ ∃ error : SettingsError,
      (∀ number, error = .unknownSetting number ↔
        value.isFinite = true ∧ 8 ≤ index ∧ number = index) ∧
      ∀ table : SettingsTable, table.assign index value = (.error error, table)) := by
  by_cases haccepts : Accepts index value
  · obtain ⟨setting, hsetting, hnone⟩ := accepts_iff.1 haccepts
    refine .inl ⟨haccepts, setting, Setting.ofIndex?_eq_some_iff.1 hsetting, hnone, fun table => ?_⟩
    rw [assign, set_eq_ok_iff.2 ⟨setting, hsetting, hnone, rfl⟩]
  · obtain ⟨error, hunknown, hset⟩ := exists_set_eq_error haccepts
    exact .inr ⟨haccepts, error, hunknown, fun table => by rw [assign, hset]⟩

theorem get?_eq_some_iff {current : Float} :
    table.get? index = some current ↔
      ∃ setting, setting.index = index ∧ table.value setting = current := by
  simp [get?, Option.map_eq_some_iff, Setting.ofIndex?_eq_some_iff]

/-- How a table answers to numbers: what it takes, what it keeps, and what stays as it was. -/
structure AccessLaws (table : SettingsTable) : Prop where
  assign_succeeds : ∀ index value, (table.assign index value).1 = .ok () ↔ Accepts index value
  assign_rejected : ∀ index value, ¬ Accepts index value → (table.assign index value).2 = table
  /-- Live settings change their table in this way, and a rejected value changes nothing in them. -/
  store_assigns : ∀ (settings : LiveSettings) index value, settings.table = table →
    (settings.store index value).1 = (table.assign index value).1 ∧
      (settings.store index value).2.table = (table.assign index value).2 ∧
      (¬ Accepts index value → (settings.store index value).2 = settings)
  assign_unknown : ∀ index value number,
    (table.assign index value).1 = .error (.unknownSetting number) ↔
      value.isFinite = true ∧ 8 ≤ index ∧ number = index
  get_assigned : ∀ index value, Accepts index value →
    (table.assign index value).2.get? index = some (kept index value) ∧
      exactValue (kept index value) =
        if index = 3 ∨ index = 7 then (truncation (exactValue value) : ℚ) else exactValue value
  get_other : ∀ index value other, other ≠ index →
    (table.assign index value).2.get? other = table.get? other
  assign_comm : ∀ index value other otherValue, other ≠ index →
    let first := table.assign index value
    let second := table.assign other otherValue
    (first.2.assign other otherValue).1 = second.1 ∧
      (second.2.assign index value).1 = first.1 ∧
      (first.2.assign other otherValue).2 = (second.2.assign index value).2
  assign_current : table.validate = .ok () → ∀ index < 8,
    ∃ current, table.get? index = some current ∧ table.assign index current = (.ok (), table)
  isSome_get : ∀ index, (table.get? index).isSome = true ↔ index < 8
  isSome_describe : ∀ index, (Setting.describe? index).isSome = true ↔ index < 8
  exists_accepted : ∀ index, (∃ value, (table.assign index value).1 = .ok ()) ↔ index < 8
  validate_iff : table.validate = .ok () ↔
    ∀ index < 8, ∃ current, table.get? index = some current ∧ Accepts index current

theorem assign_succeeds_iff : (table.assign index value).1 = .ok () ↔ Accepts index value := by
  rcases assign_cases index value with
    ⟨haccepts, setting, -, -, hassign⟩ | ⟨hnot, error, -, hassign⟩
  · simp [hassign, haccepts]
  · simp [hassign table, hnot]

theorem isSome_get?_iff : (table.get? index).isSome = true ↔ index < 8 := by
  rw [get?, Option.isSome_map, Setting.isSome_ofIndex?_iff]

theorem get?_put_of_ne (table : SettingsTable) {setting : Setting} {other : UInt32}
    (different : other ≠ setting.index) (value : Float) :
    (table.put setting value).get? other = table.get? other := by
  rw [get?, get?]
  cases hother : Setting.ofIndex? other with
  | none => rfl
  | some otherSetting =>
      rw [← Setting.ofIndex?_eq_some_iff.1 hother] at different
      exact congrArg some (value_put_of_ne table (fun h => different (congrArg _ h)) value)

theorem validate_iff_accepts : table.validate = .ok () ↔
    ∀ index < 8, ∃ current, table.get? index = some current ∧ Accepts index current := by
  rw [validate_eq_ok_iff]
  constructor
  · intro hvalid index hindex
    obtain ⟨setting, rfl⟩ := Setting.exists_index_eq_iff.2 hindex
    exact ⟨_, get?_eq_some_iff.2 ⟨setting, rfl, rfl⟩, accepts_index_iff.2 (hvalid setting)⟩
  · intro hentries setting
    obtain ⟨current, hcurrent, haccepts⟩ :=
      hentries _ (Setting.exists_index_eq_iff.1 ⟨setting, rfl⟩)
    obtain ⟨other, hother, rfl⟩ := get?_eq_some_iff.1 hcurrent
    obtain rfl := Setting.index_injective hother
    exact accepts_index_iff.1 haccepts

theorem accessLaws (table : SettingsTable) : table.AccessLaws where
  assign_succeeds index value := assign_succeeds_iff
  assign_rejected index value rejected := by
    rcases assign_cases index value with ⟨haccepts, -⟩ | ⟨-, error, -, hassign⟩
    · exact absurd haccepts rejected
    · rw [hassign table]
  store_assigns := by
    rintro settings index value rfl
    rcases settings.store_cases index value with ⟨error, hset, hstore⟩ | ⟨changed, hset, hstore⟩
    · simp [hstore, assign, hset]
    · have haccepts : Accepts index value :=
        assign_succeeds_iff.1 (show (settings.table.assign index value).1 = _ by rw [assign, hset])
      simp [hstore, assign, hset, haccepts]
  assign_unknown index value number := by
    rcases assign_cases index value with
      ⟨haccepts, setting, -, -, hassign⟩ | ⟨-, error, hunknown, hassign⟩
    · simp [hassign, UInt32.not_le.2 haccepts.index_lt]
    · simp [hassign table, hunknown]
  get_assigned index value accepted := by
    rcases assign_cases index value with ⟨-, setting, rfl, hnone, hassign⟩ | ⟨hnot, -⟩
    · rw [hassign]
      exact ⟨get?_eq_some_iff.2 ⟨setting, rfl, value_put_self table hnone⟩,
        exactValue_kept accepted⟩
    · exact absurd accepted hnot
  get_other index value other different := by
    rcases assign_cases index value with ⟨-, setting, rfl, -, hassign⟩ | ⟨-, error, -, hassign⟩
    · rw [hassign]
      exact get?_put_of_ne table different value
    · rw [hassign table]
  assign_comm index value other otherValue different := by
    rcases assign_cases index value with ⟨-, first, rfl, -, hfirst⟩ | ⟨-, error, -, hfirst⟩ <;>
      rcases assign_cases other otherValue with
        ⟨-, second, rfl, -, hsecond⟩ | ⟨-, otherError, -, hsecond⟩
    · simp only [hfirst, hsecond, true_and]
      exact put_comm table (fun h => different (congrArg _ h.symm)) value otherValue
    · simp [hfirst, hsecond]
    · simp [hfirst, hsecond]
    · simp [hfirst, hsecond]
  assign_current valid index hindex := by
    obtain ⟨current, hcurrent, haccepts⟩ := validate_iff_accepts.1 valid index hindex
    obtain ⟨setting, rfl, rfl⟩ := get?_eq_some_iff.1 hcurrent
    refine ⟨_, hcurrent, ?_⟩
    rw [assign, set_eq_ok_iff.2
      ⟨setting, Setting.ofIndex?_index setting, accepts_index_iff.1 haccepts, rfl⟩, put_value]
  isSome_get _ := isSome_get?_iff
  isSome_describe _ := Setting.isSome_describe?_iff
  exists_accepted index := by simp only [assign_succeeds_iff, exists_accepts_iff]
  validate_iff := validate_iff_accepts

example : (standard.assign 7 255.9).2.get? 7 = some 255 ∧
    (standard.assign 7 256).2.get? 7 = some 0 := by
  decide +kernel

end SettingsTable

end Gcode
