import Gcode.Proofs.Session.Written

/-!
# The replies of a run

A run answers the lines of its program, each from its own outcome, and counts the answers.  Two runs
one after the other are one run over both inputs, and a line that is no text leaves what the lines
before it led to.
-/

namespace Gcode

/-- The texts of lines, up to the first that has none. -/
def textLines : List (List UInt8) → List (List Char)
  | [] => []
  | bytes :: lines =>
    match decodeLine bytes with
    | none => []
    | some raw => raw :: textLines lines

/-! ## Counting -/

namespace Tally

def plus (first second : Tally) : Tally :=
  ⟨first.lines + second.lines, first.errors + second.errors⟩

end Tally

/-! ## Replies -/

namespace Session

end Session

/-! ## Runs over lines -/

namespace Session

variable (session : Session) (summary : Tally)

theorem textLines_of_undecodable {bytes : List UInt8} (hdecode : decodeLine bytes = none)
    (lines : List (List UInt8)) : textLines (bytes :: lines) = [] := by
  rw [textLines, hdecode]

theorem textLines_of_decodable {bytes : List UInt8} {raw : List Char}
    (hdecode : decodeLine bytes = some raw) (lines : List (List UInt8)) :
    textLines (bytes :: lines) = raw :: textLines lines := by
  rw [textLines, hdecode]

theorem runLines_of_undecodable {bytes : List UInt8} (hdecode : decodeLine bytes = none)
    (lines : List (List UInt8)) :
    session.runLines summary (bytes :: lines) =
      { session, summary, steps := [], complete := false } := by
  rw [runLines, hdecode]

theorem runLines_of_decodable {bytes : List UInt8} {raw : List Char}
    (hdecode : decodeLine bytes = some raw) (lines : List (List UInt8)) :
    session.runLines summary (bytes :: lines) =
      let step := session.execute raw
      let run := step.session.runLines (summary.count step.status) lines
      { run with steps := (step.listing, step.replies) :: run.steps } := by
  rw [runLines, hdecode]

theorem runLines_session (lines : List (List UInt8)) :
    (session.runLines summary lines).session = session.after (textLines lines) := by
  induction lines generalizing session summary with
  | nil => rfl
  | cons bytes lines ih =>
      cases hdecode : decodeLine bytes with
      | none => rw [runLines_of_undecodable _ _ hdecode, textLines_of_undecodable hdecode]; rfl
      | some raw =>
          rw [runLines_of_decodable _ _ hdecode, textLines_of_decodable hdecode]
          exact ih _ _

theorem runLines_replies (lines : List (List UInt8)) :
    (session.runLines summary lines).replies =
      (executeAll (programLines (textLines lines)) session.state session.settings).flatMap
        (answer session.showTrace) := by
  induction lines generalizing session summary with
  | nil => rfl
  | cons bytes lines ih =>
      cases hdecode : decodeLine bytes with
      | none => rw [runLines_of_undecodable _ _ hdecode, textLines_of_undecodable hdecode]; rfl
      | some raw =>
          rw [runLines_of_decodable _ _ hdecode, textLines_of_decodable hdecode, Run.replies,
            List.flatMap_cons, ← Run.replies, ih]
          by_cases hblank : normalized raw = []
          · rw [execute_of_blank hblank, programLines_of_blank hblank]
            rfl
          · obtain ⟨hsession, hreplies, -⟩ := execute_of_line hblank session
            rw [hsession, hreplies, programLines_of_line hblank]
            rfl

end Session

end Gcode
