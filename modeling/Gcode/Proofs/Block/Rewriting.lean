import Gcode.Proofs.Block.Words

/-!
# Rewriting parameters

A rewriting changes the parameters of a line word by word: their letters, one to one, or their
numbers.  It leaves commands alone, so the rewritten line sets the same modes and has its faults at
the same words; and the last word of a slot becomes the last word of the slot it is moved to.
-/

namespace Gcode

def Word.isCommand (word : Word) : Bool :=
  word.letter == 'G' || word.letter == 'M' || word.letter == 'T'

theorem Slot.isCommand_of_ofWord? {word : Word} {slot : Slot}
    (h : Slot.ofWord? word = some slot) : slot.isCommand = word.isCommand := by
  cases hcommand : word.isCommand with
  | true =>
      refine Slot.isCommand_of_not_parameter ?_ h
      simp only [Word.isCommand, Bool.or_eq_true, beq_iff_eq] at hcommand
      rcases hcommand with (hletter | hletter) | hletter <;> simp [Parameter.ofWord?, hletter]
  | false =>
      simp only [Word.isCommand, Bool.or_eq_false_iff, beq_eq_false_iff_ne] at hcommand
      unfold Slot.ofWord? at h
      split at h <;> simp_all <;> subst h <;> rfl

theorem Word.isSupported_of_not_isCommand {word : Word} (h : word.isCommand = false) :
    word.isSupported = true := by
  simp only [isCommand, Bool.or_eq_false_iff, beq_eq_false_iff_ne] at h
  rw [isSupported, if_neg h.1.1, if_neg h.1.2]

/-- `slot` tells where the rewritten words of a slot go. -/
structure RewritesParameters (rewrite : Word → Word) (slot : Slot → Slot) : Prop where
  ofWord? : ∀ word, Slot.ofWord? (rewrite word) = (Slot.ofWord? word).map slot
  injective : Function.Injective slot
  command : ∀ word, word.isCommand = true → rewrite word = word
  parameter : ∀ word, word.isCommand = false → (rewrite word).isCommand = false

def Block.map (rewrite : Word → Word) (block : Block) : Block :=
  ⟨block.words.map rewrite, block.failure⟩

namespace RewritesParameters

variable {rewrite : Word → Word} {slot : Slot → Slot} (rewriting : RewritesParameters rewrite slot)

include rewriting

theorem lastWord?_map (filled : Slot) (words : List Word) :
    lastWord? (slot filled) (words.map rewrite) = (lastWord? filled words).map rewrite := by
  have hslot : ∀ word, (decide (Slot.ofWord? (rewrite word) = some (slot filled))) =
      decide (Slot.ofWord? word = some filled) := by
    intro word
    rw [rewriting.ofWord?]
    cases Slot.ofWord? word <;> simp [rewriting.injective.eq_iff]
  simp only [lastWord?, List.filter_map, Function.comp_def, hslot, List.getLast?_map]

theorem lastWord?_map_command {filled : Slot} (h : filled.isCommand = true) (words : List Word) :
    lastWord? filled (words.map rewrite) = lastWord? filled words := by
  have hslot : ∀ word, (decide (Slot.ofWord? (rewrite word) = some filled)) =
      decide (Slot.ofWord? word = some filled) := by
    intro word
    cases hcommand : word.isCommand with
    | true => rw [rewriting.command word hcommand]
    | false =>
        have hword : Slot.ofWord? word ≠ some filled := fun hfilled => by
          simp [← Slot.isCommand_of_ofWord? hfilled, h] at hcommand
        have hrewritten : Slot.ofWord? (rewrite word) ≠ some filled := fun hfilled => by
          have := rewriting.parameter word hcommand
          simp [← Slot.isCommand_of_ofWord? hfilled, h] at this
        simp [hword, hrewritten]
  have hkept : ∀ word ∈ words.filter (fun word => Slot.ofWord? word = some filled),
      rewrite word = word := by
    intro word hword
    have hfilled : Slot.ofWord? word = some filled := by simpa using (List.mem_filter.1 hword).2
    exact rewriting.command word (by rw [← Slot.isCommand_of_ofWord? hfilled, h])
  simp only [lastWord?, List.filter_map, Function.comp_def, hslot]
  rw [List.map_congr_left hkept, List.map_id']

/-! ## What stays the same -/

theorem isSupported (word : Word) : (rewrite word).isSupported = word.isSupported := by
  cases hcommand : word.isCommand with
  | true => rw [rewriting.command word hcommand]
  | false =>
      rw [Word.isSupported_of_not_isCommand hcommand,
        Word.isSupported_of_not_isCommand (rewriting.parameter word hcommand)]

theorem takeWhile_isSupported (words : List Word) :
    (words.map rewrite).takeWhile Word.isSupported =
      (words.takeWhile Word.isSupported).map rewrite := by
  simp only [List.takeWhile_map, Function.comp_def, rewriting.isSupported]

theorem fault?_map (block : Block) : (block.map rewrite).fault? = block.fault? := by
  simp only [Block.fault?, Block.map, List.all_map, Function.comp_def, rewriting.isSupported]

theorem afterCommands (state : ModalState) (words : List Word) :
    state.afterCommands (words.map rewrite) = state.afterCommands words := by
  simp (disch := decide) only [ModalState.afterCommands, lastG?, lastM?,
    rewriting.lastWord?_map_command]

theorem modifiers (words : List Word) :
    BlockModifiers.ofWords (words.map rewrite) = .ofWords words := by
  simp (disch := decide) only [BlockModifiers.ofWords, lastG?, rewriting.lastWord?_map_command]

end RewritesParameters

theorem unset_takeWhile {slot : Slot} {words : List Word}
    (unset : ∀ word ∈ words, Slot.ofWord? word ≠ some slot) :
    ∀ word ∈ words.takeWhile Word.isSupported, Slot.ofWord? word ≠ some slot :=
  fun word hword => unset word ((List.takeWhile_sublist _).subset hword)

end Gcode
