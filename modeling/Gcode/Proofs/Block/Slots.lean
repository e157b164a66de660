import Gcode.Block.Parameters
import Gcode.Proofs.Words.Fault

/-!
# Slots

Each word with a meaning fills one slot of its line: the words `G0 G1 G2 G3 G80` share one, the
words `X` another.  `lastWord?` finds the last word of a slot, which is all that a line says about
it.
-/

namespace Gcode

inductive Slot where
  | motionMode
  | action
  | plane
  | units
  | distance
  | feedMode
  | absoluteOverride
  | programFlow
  | spindle
  | tool
  | feed
  | centre (axis : Axis)
  | dwell
  | radius
  | spindleSpeed
  | coordinate (axis : Axis)
  deriving DecidableEq, Repr

namespace Slot

def ofG? : Int → Option Slot
  | 0 | 1 | 2 | 3 | 80 => some motionMode
  | 4 | 28 | 30 => some action
  | 17 | 18 | 19 => some plane
  | 20 | 21 => some units
  | 90 | 91 => some distance
  | 93 | 94 => some feedMode
  | 53 => some absoluteOverride
  | _ => none

def ofM? : Int → Option Slot
  | 0 | 1 | 2 | 30 | 60 => some programFlow
  | 3 | 4 | 5 => some spindle
  | _ => none

def ofWord? (word : Word) : Option Slot :=
  match word.letter with
  | 'G' => ofG? (truncatedCode word.value)
  | 'M' => ofM? (truncatedCode word.value)
  | 'T' => some tool
  | 'F' => some feed
  | 'I' => some (centre .x)
  | 'J' => some (centre .y)
  | 'K' => some (centre .z)
  | 'P' => some dwell
  | 'R' => some radius
  | 'S' => some spindleSpeed
  | 'X' => some (coordinate .x)
  | 'Y' => some (coordinate .y)
  | 'Z' => some (coordinate .z)
  | _ => none

def isCommand : Slot → Bool
  | motionMode | action | plane | units | distance | feedMode | absoluteOverride | programFlow
  | spindle | tool => true
  | feed | centre _ | dwell | radius | spindleSpeed | coordinate _ => false

def isLength : Slot → Bool
  | feed | centre _ | radius | coordinate _ => true
  | _ => false

end Slot

/-! ## Slots of commands and parameters -/

def GCode.slot : GCode → Slot
  | motion _ => .motionMode
  | dwell | goHome => .action
  | selectPlane _ => .plane
  | units _ => .units
  | absoluteOverride => .absoluteOverride
  | absoluteMode | relativeMode => .distance
  | inverseFeedRateMode | unitsPerMinuteMode => .feedMode

def MCode.slot : MCode → Slot
  | programFlow _ => .programFlow
  | spindle _ => .spindle

def Parameter.slot : Parameter → Slot
  | feed _ => .feed
  | arcOffset axis _ => .centre axis
  | dwell _ => .dwell
  | radius _ => .radius
  | spindleSpeed _ => .spindleSpeed
  | coordinate axis _ => .coordinate axis

def Parameter.value : Parameter → Float
  | feed value | arcOffset _ value | dwell value | radius value | spindleSpeed value
  | coordinate _ value => value

namespace Slot

theorem ofG?_eq_map (number : Int) : ofG? number = (GCode.ofNumber? number).map GCode.slot := by
  unfold GCode.ofNumber?
  split
  case h_19 =>
      unfold ofG?
      split <;> simp_all
  all_goals rfl

theorem ofM?_eq_map (number : Int) : ofM? number = (MCode.ofNumber? number).map MCode.slot := by
  unfold MCode.ofNumber?
  split
  case h_9 =>
      unfold ofM?
      split <;> simp_all
  all_goals rfl

end Slot

theorem Command.ofWord_cases {word : Word} {command : Command}
    (h : Command.ofWord word = .ok command) :
    (∃ code, GCode.ofNumber? (truncatedCode word.value) = some code ∧ command = .g code ∧
      Slot.ofWord? word = some code.slot) ∨
    (∃ code, MCode.ofNumber? (truncatedCode word.value) = some code ∧ command = .m code ∧
      Slot.ofWord? word = some code.slot) ∨
    (command = .tool (toolOf word.value) ∧ Slot.ofWord? word = some .tool) ∨
    (command = .parameter ∧
      ∀ slot, Slot.ofWord? word = some slot → slot.isCommand = false) := by
  unfold Command.ofWord at h
  by_cases hG : word.letter = 'G'
  · rw [if_pos hG] at h
    cases hcode : GCode.ofNumber? (truncatedCode word.value) with
    | none => simp [hcode] at h
    | some code =>
        have hslot : Slot.ofWord? word = some code.slot := by
          simp [Slot.ofWord?, hG, Slot.ofG?_eq_map, hcode]
        exact .inl ⟨code, rfl, by simpa [hcode] using h.symm, hslot⟩
  by_cases hM : word.letter = 'M'
  · rw [if_neg hG, if_pos hM] at h
    cases hcode : MCode.ofNumber? (truncatedCode word.value) with
    | none => simp [hcode] at h
    | some code =>
        have hslot : Slot.ofWord? word = some code.slot := by
          simp [Slot.ofWord?, hM, Slot.ofM?_eq_map, hcode]
        exact .inr (.inl ⟨code, rfl, by simpa [hcode] using h.symm, hslot⟩)
  by_cases hT : word.letter = 'T'
  · rw [if_neg hG, if_neg hM, if_pos hT] at h
    exact .inr (.inr (.inl ⟨by simpa using h.symm, by simp [Slot.ofWord?, hT]⟩))
  · rw [if_neg hG, if_neg hM, if_neg hT] at h
    refine .inr (.inr (.inr ⟨by simpa using h.symm, fun slot hslot => ?_⟩))
    unfold Slot.ofWord? at hslot
    split at hslot <;> simp_all <;> subst hslot <;> rfl

theorem Parameter.slot_of_ofWord? {word : Word} {parameter : Parameter}
    (h : Parameter.ofWord? word = some parameter) :
    Slot.ofWord? word = some parameter.slot ∧ parameter.value = word.value := by
  unfold Parameter.ofWord? at h
  unfold Slot.ofWord?
  split at h <;> cases h <;> simp_all [Parameter.slot, Parameter.value]

theorem Slot.isCommand_of_not_parameter {word : Word} (h : Parameter.ofWord? word = none)
    {slot : Slot} (hslot : Slot.ofWord? word = some slot) : slot.isCommand = true := by
  unfold Slot.ofWord? at hslot
  split at hslot
  case h_1 =>
      rw [ofG?_eq_map] at hslot
      obtain ⟨code, -, rfl⟩ := Option.map_eq_some_iff.1 hslot
      cases code <;> rfl
  case h_2 =>
      rw [ofM?_eq_map] at hslot
      obtain ⟨code, -, rfl⟩ := Option.map_eq_some_iff.1 hslot
      cases code <;> rfl
  case h_3 =>
      cases hslot
      rfl
  all_goals simp_all [Parameter.ofWord?]

/-! ## The last word of a slot -/

def lastWord? (slot : Slot) (words : List Word) : Option Word :=
  (words.filter fun word => Slot.ofWord? word = some slot).getLast?

@[simp] theorem lastWord?_nil (slot : Slot) : lastWord? slot [] = none := rfl

theorem lastWord?_concat (slot : Slot) (words : List Word) (word : Word) :
    lastWord? slot (words ++ [word]) =
      if Slot.ofWord? word = some slot then some word else lastWord? slot words := by
  unfold lastWord?
  rw [List.filter_append]
  split_ifs with hslot <;> simp [hslot]

theorem lastWord?_filter {slot : Slot} {keep : Word → Bool}
    (kept : ∀ word, Slot.ofWord? word = some slot → keep word = true) (words : List Word) :
    lastWord? slot (words.filter keep) = lastWord? slot words := by
  have hfilter : ∀ word, ((decide (Slot.ofWord? word = some slot) && keep word) =
      decide (Slot.ofWord? word = some slot)) := by
    intro word
    by_cases hslot : Slot.ofWord? word = some slot
    · simp [hslot, kept word hslot]
    · simp [hslot]
  simp only [lastWord?, List.filter_filter, hfilter]

theorem lastWord?_eq_none_iff {slot : Slot} {words : List Word} :
    lastWord? slot words = none ↔ ∀ word ∈ words, Slot.ofWord? word ≠ some slot := by
  simp [lastWord?]

theorem lastWord?_slot {slot : Slot} {words : List Word} {word : Word}
    (h : lastWord? slot words = some word) : Slot.ofWord? word = some slot := by
  have hmem := List.mem_of_getLast? h
  simpa using (List.mem_filter.1 hmem).2

end Gcode
