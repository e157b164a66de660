import Gcode.Block.Motion
import Gcode.Settings.Statement

/-!
# Executing lines

`execute` runs one line.  `executeAll` runs a program line by line, and `executeProgram` as a whole:
it issues the requests of its lines in order.

A line is a comment (it starts with `(`), a settings statement (`$`) or a block of words, which may
start with a `/`.  Execution is a function: the requests of a line are part of its outcome, and
there are none unless the line succeeds.
-/

namespace Gcode

structure Outcome (σ : Type) where
  state : ModalState
  settings : σ
  requests : List Request

def Outcome.status {σ : Type} (outcome : Outcome σ) : StatusCode := outcome.state.status

def withoutBlockDelete : List Char → List Char
  | '/' :: block => block
  | block => block

/-- Executes a block of words: commands, then parameters, then the motion.  The position moves
only if all three succeed. -/
def executeBlock (block : List Char) (state : ModalState) :
    Except LineError (List Request) × ModalState :=
  match readCommands block state with
  | (.error error, state) => (.error error, state)
  | (.ok modifiers, state) =>
    match readParameters block state modifiers.absoluteOverride with
    | (.error error, state) => (.error error, state)
    | (.ok parameters, state) =>
      match planBlock state modifiers.action parameters with
      | .error error => (.error error, state)
      | .ok motion =>
        (.ok (blockRequests state motion), { state with position := parameters.target })

section

variable {σ : Type} [SettingsHost σ]

def execute (line : List Char) (state : ModalState) (settings : σ) : Outcome σ :=
  match line with
  | '(' :: _ => ⟨{ state with status := .ok }, settings, []⟩
  | '$' :: _ =>
    let (result, settings) := executeSettings line settings
    ⟨{ state with status := .ofResult result }, settings, []⟩
  | _ =>
    let (result, state) := executeBlock (withoutBlockDelete line) state
    ⟨{ state with status := .ofResult result }, settings, result.toOption.getD []⟩

def executeAll : List (List Char) → ModalState → σ → List (Outcome σ)
  | [], _, _ => []
  | line :: lines, state, settings =>
    let outcome := execute line state settings
    outcome :: executeAll lines outcome.state outcome.settings

def executeProgram : List (List Char) → ModalState → σ → Outcome σ
  | [], state, settings => ⟨state, settings, []⟩
  | line :: lines, state, settings =>
    let first := execute line state settings
    let rest := executeProgram lines first.state first.settings
    { rest with requests := first.requests ++ rest.requests }

theorem requests_executeProgram (lines : List (List Char)) (state : ModalState) (settings : σ) :
    (executeProgram lines state settings).requests =
      (executeAll lines state settings).flatMap Outcome.requests := by
  induction lines generalizing state settings with
  | nil => rfl
  | cons line lines ih =>
    simp only [executeProgram, executeAll, List.flatMap_cons]
    rw [ih]

end

end Gcode
