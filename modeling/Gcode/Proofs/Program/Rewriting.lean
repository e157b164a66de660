import Gcode.Proofs.Block.Rewriting
import Gcode.Proofs.Program.Steps

/-!
# Rewritten programs

A program is rewritten line by line.  If blocks follow a rewriting from states of some kind, and
leave states of that kind, then so do programs.
-/

namespace Gcode

/-- The words of the second line are those of the first, rewritten.  Both lines are read to their
ends, and neither fills the slot `unset`. -/
structure IsRewriting (rewrite : Word → Word) (unset : Slot) (line rewritten : List Char) :
    Prop where
  scanned : (scanWords (withoutBlockDelete line)).failure = none
  scannedRewritten : (scanWords (withoutBlockDelete rewritten)).failure = none
  words : blockWords rewritten = (blockWords line).map rewrite
  unset : ∀ word ∈ blockWords line, Slot.ofWord? word ≠ some unset

section

variable {rewrite : Word → Word} {unset : Slot}

theorem IsRewriting.ofLine {line rewritten : List Char}
    (h : IsRewriting rewrite unset line rewritten) :
    Block.ofLine rewritten = (Block.ofLine line).map rewrite := by
  rw [Block.ofLine, Block.ofLine, Block.map, h.words, h.scanned, h.scannedRewritten]

variable {σ : Type} [SettingsHost σ]

/-- `move` takes the states of one program to those of the other, and `change` the outcomes.  The
blocks are rewritten from the states that satisfy `Kept`, which they keep. -/
theorem executeAll_rewritten (Kept : ModalState → Prop) (move : ModalState → ModalState)
    (change : Outcome σ → Outcome σ)
    (moved : ∀ outcome, (change outcome).state = move outcome.state ∧
      (change outcome).settings = outcome.settings)
    (step : ∀ {block : Block} {state : ModalState} (settings : σ),
      (∀ word ∈ block.words, Slot.ofWord? word ≠ some unset) → Kept state →
        (block.map rewrite).execute (move state) settings =
            change (block.execute state settings) ∧
          Kept (block.execute state settings).state)
    {lines rewritten : List (List Char)}
    (alike : List.Forall₂ (IsRewriting rewrite unset) lines rewritten) {state : ModalState}
    (start : Kept state) (settings : σ) :
    List.Forall₂ (fun outcome twin => twin = change outcome ∧ Kept outcome.state)
      (executeAll lines state settings) (executeAll rewritten (move state) settings) := by
  refine executeAll_inStep (fun current twin => twin = move current ∧ Kept current)
    (fun outcome twin : Outcome σ => twin = change outcome ∧ Kept outcome.state)
    (fun settings hline hrelated => ?_) (fun hmatch => ?_) alike ⟨rfl, start⟩ settings
  · obtain ⟨rfl, hkept⟩ := hrelated
    rw [execute_block_eq (isBlock_of_scanned hline.scanned),
      execute_block_eq (isBlock_of_scanned hline.scannedRewritten), hline.ofLine]
    exact step settings hline.unset hkept
  · obtain ⟨rfl, hkept⟩ := hmatch
    obtain ⟨hstate, hsettings⟩ := moved _
    exact ⟨⟨hstate, hkept⟩, hsettings.symm⟩

end

end Gcode
