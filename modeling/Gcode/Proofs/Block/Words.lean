import Gcode.Proofs.Program.Effect

/-!
# Blocks as words

Execution sees nothing of a block but its words and the kind of fault at which they end.  A `Block`
holds just that, and `Block.execute` is what a line with this block does.  So what is to be shown of
two lines that are written differently is shown of lists of words.
-/

namespace Gcode

structure Block where
  words : List Word
  failure : Option StatusCode
  deriving DecidableEq, Repr

namespace Outcome

variable {σ : Type}

def stopped (state : ModalState) (status : StatusCode) (settings : σ) : Outcome σ :=
  ⟨{ state with status }, settings, []⟩

def moved (state : ModalState) (target : Point Float) (motion : Motion) (settings : σ) :
    Outcome σ :=
  ⟨{ state with position := target, status := .ok }, settings, blockRequests state motion⟩

end Outcome

namespace Block

def ofLine (line : List Char) : Block :=
  ⟨blockWords line, (scanWords (withoutBlockDelete line)).failure.map LineError.status⟩

/-- The status that the leftmost failing word decides.  An unsupported word stands before the place
where the words end. -/
def fault? (block : Block) : Option StatusCode :=
  if block.words.all Word.isSupported then block.failure else some .unsupportedStatement

def execute {σ : Type} (block : Block) (state : ModalState) (settings : σ) : Outcome σ :=
  match block.fault? with
  | some status =>
    .stopped (state.afterCommands (block.words.takeWhile Word.isSupported)) status settings
  | none =>
    match plannedMotion state block.words with
    | .error error => .stopped (state.afterWords block.words) error.status settings
    | .ok motion =>
      .moved (state.afterWords block.words) (Parameters.ofBlock state block.words).target motion
        settings

theorem fault?_ofLine (line : List Char) :
    (ofLine line).fault? =
      (leftmostFault? (withoutBlockDelete line)).map fun located => located.2.status := by
  have herror := leftmostFaultFrom_error 0 (withoutBlockDelete line)
  have hstatus : (leftmostFault? (withoutBlockDelete line)).map (fun located => located.2.status) =
      ((leftmostFault? (withoutBlockDelete line)).map
        fun located => located.2.error located.1).map LineError.status := by
    simp [Function.comp_def]
  rw [hstatus, leftmostFault?, ← herror, fault?, ofLine, blockWords, wordsOf, scanWords]
  cases hfind : (scanWordsFrom 0 (withoutBlockDelete line)).words.find?
      fun placed => !placed.word.isSupported with
  | none =>
      have hsupported := List.find?_eq_none.1 hfind
      rw [if_pos (by simpa using hsupported)]
      rfl
  | some placed =>
      have hplaced := List.find?_some hfind
      rw [if_neg]
      · rfl
      · intro hall
        have hword := List.all_eq_true.1 hall placed.word
          (List.mem_map_of_mem (List.mem_of_find?_eq_some hfind))
        simp [hword] at hplaced

end Block

theorem execute_block_eq {σ : Type} [SettingsHost σ] {line : List Char} (block : IsBlock line)
    (state : ModalState) (settings : σ) :
    execute line state settings = (Block.ofLine line).execute state settings := by
  have effect := execute_lineEffect line state settings
  have hfault := Block.fault?_ofLine line
  generalize execute line state settings = outcome at effect
  unfold Block.execute
  cases effect with
  | comment start => exact absurd start block.noComment
  | statement start => exact absurd start block.noSettings
  | fault _ found =>
      rw [hfault, found]
      rfl
  | @impossible error faultless planned =>
      rw [hfault, leftmostFault?_eq_none_iff.2 faultless]
      simp only [Option.map_none, Block.ofLine, planned, planBlock_error_status planned]
      rfl
  | success faultless planned =>
      rw [hfault, leftmostFault?_eq_none_iff.2 faultless]
      simp only [Option.map_none, Block.ofLine, planned]
      rfl

end Gcode
