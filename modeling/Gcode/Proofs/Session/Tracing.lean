import Gcode.Proofs.Session.Replies

/-!
# Runs that are watched

A session that shows its requests does what it would do without showing them.  A run that is not
shown is the shown run with the requests left out (`runLines_untraced`), from line to line and so
over a whole input; and as each request is a line of its own, leaving it out is deleting that line.
-/

namespace Gcode

namespace Session

def withTrace (session : Session) (showTrace : Bool) : Session := { session with showTrace }

def Step.untraced (step : Step) : Step :=
  { step with
    session := step.session.withTrace false
    replies := step.replies.filter (!·.isRequest) }

end Session

def Run.untraced (run : Run) : Run :=
  { run with
    session := run.session.withTrace false
    steps := run.steps.map fun step => (step.1, step.2.filter (!·.isRequest)) }

namespace Session

/-! ## Runs -/

theorem showTrace_execute (session : Session) (raw : List Char) :
    (session.execute raw).session.showTrace = session.showTrace := by
  rw [execute]
  split <;> rfl

theorem execute_untraced {session : Session} (shown : session.showTrace = true)
    (raw : List Char) :
    (session.withTrace false).execute raw = (session.execute raw).untraced := by
  by_cases hblank : normalized raw = []
  · rw [execute_of_blank hblank, execute_of_blank hblank]
    rfl
  · simp [execute, hblank, shown, withTrace, Step.untraced, List.filter_map, Function.comp_def,
      Output.isRequest]

theorem runLines_untraced {session : Session} (shown : session.showTrace = true)
    (summary : Tally) (lines : List (List UInt8)) :
    (session.withTrace false).runLines summary lines =
      (session.runLines summary lines).untraced := by
  induction lines generalizing session summary with
  | nil => rfl
  | cons bytes lines ih =>
      cases hdecode : decodeLine bytes with
      | none => rw [runLines_of_undecodable _ _ hdecode, runLines_of_undecodable _ _ hdecode]; rfl
      | some raw =>
          have hshown := (session.showTrace_execute raw).trans shown
          rw [runLines_of_decodable _ _ hdecode, runLines_of_decodable _ _ hdecode,
            execute_untraced shown]
          simp only [Step.untraced, ih hshown]
          rfl

theorem showTrace_runLines (session : Session) (summary : Tally) (lines : List (List UInt8)) :
    (session.runLines summary lines).session.showTrace = session.showTrace := by
  rw [runLines_session, after_eq]
  rfl

theorem runReader_untraced (pieces : Nat) {session : Session} (shown : session.showTrace = true)
    (summary : Tally) (reader : LineReader) :
    (session.withTrace false).runReader pieces summary reader =
      (session.runReader pieces summary reader).untraced := by
  induction pieces generalizing session summary reader with
  | zero => rfl
  | succ pieces ih =>
      have hfiles : (session.withTrace false).settings = session.settings := rfl
      rw [runReader, runReader, hfiles]
      cases reader.next? session.settings.files with
      | none => rfl
      | some next =>
          have hshown := (session.showTrace_runLines summary next.1).trans shown
          simp only [runLines_untraced shown]
          cases hcomplete : (session.runLines summary next.1).complete with
          | false => simp [Run.untraced, hcomplete]
          | true => simp [Run.untraced, hcomplete, ih hshown]

/-- A file may be changed by the session that runs it; even then it makes no difference whether the
requests are shown. -/
theorem runFile?_untraced {session : Session} (shown : session.showTrace = true) (path : Path) :
    (session.withTrace false).runFile? path = (session.runFile? path).map Run.untraced := by
  have hfiles : (session.withTrace false).settings = session.settings := rfl
  rw [runFile?, runFile?, hfiles]
  cases session.settings.files.place? path with
  | none => rfl
  | some place =>
      cases session.settings.files.read? path with
      | none => rfl
      | some text => exact congrArg some (runReader_untraced _ shown ..)

end Session

/-! ## Outputs -/

theorem Run.outputs_untraced (run : Run) :
    run.untraced.outputs = run.outputs.filter (!·.isRequest) := by
  simp only [outputs, untraced, List.flatMap_map, List.filter_flatMap, List.filter_append]
  refine List.flatMap_congr fun step _ => ?_
  congr 1
  split <;> rfl

theorem Run.replies_untraced (run : Run) :
    run.untraced.replies = run.replies.filter (!·.isRequest) := by
  simp [replies, untraced, List.flatMap_map, List.filter_flatMap]

theorem Run.replies_subset (run : Run) : run.replies ⊆ run.outputs := by
  intro reply hreply
  obtain ⟨step, hstep, hmem⟩ := List.mem_flatMap.1 hreply
  exact List.mem_flatMap.2 ⟨step, hstep, List.mem_append_right _ hmem⟩

theorem Run.filter_outputs (run : Run) :
    run.outputs.filter Output.isRequest = run.replies.filter Output.isRequest := by
  simp only [outputs, replies, List.filter_flatMap, List.filter_append]
  refine List.flatMap_congr fun step _ => ?_
  split <;> rfl

theorem Session.traceLines_eq (outcome : Outcome LiveSettings) :
    ((answer true outcome).filter Output.isRequest).map Output.bytes = outcome.traceLines := by
  simp [answer, List.filter_map, Function.comp_def, Output.isRequest, Output.bytes_request,
    Outcome.traceLines]

/-- Whether the requests are shown makes no difference to what a run counts, leaves and lists.  Each
request is one line of the output, and an object; deleting these lines gives the output that the run
has without them, be it the replies alone or the listings among them. -/
theorem Session.run_traced (session : Session) (input : List UInt8) :
    let program := programLines (textLines (splitLines input))
    let objects := (executeAll program session.state session.settings).flatMap Outcome.traceLines
    let traced := (session.withTrace true).run input
    let plain := (session.withTrace false).run input
    plain.summary = traced.summary ∧ plain.complete = traced.complete ∧
      plain.session.state = traced.session.state ∧
      plain.session.settings = traced.session.settings ∧
      plain.steps.map Prod.fst = traced.steps.map Prod.fst ∧
      (objectLines (outputBytes traced.replies) = objects ∧
        withoutObjects (outputBytes traced.replies) = outputBytes plain.replies) ∧
      (objectLines (outputBytes traced.outputs) = objects ∧
        withoutObjects (outputBytes traced.outputs) = outputBytes plain.outputs) ∧
      objects.length = (executeProgram program session.state session.settings).requests.length ∧
      ∀ object ∈ objects, ∃ entries,
        object = encodeText (Json.write .compact (.table entries)) ++ [10] := by
  intro program objects traced plain
  have hshown : (session.withTrace true).showTrace = true := rfl
  have hplain : plain = traced.untraced := runLines_untraced hshown .empty (splitLines input)
  have hreplies : traced.replies =
      (executeAll program session.state session.settings).flatMap (answer true) :=
    (session.withTrace true).runLines_replies .empty (splitLines input)
  have hobjects : (traced.replies.filter Output.isRequest).map Output.bytes = objects := by
    rw [hreplies, List.filter_flatMap, List.map_flatMap]
    exact List.flatMap_congr fun outcome _ => traceLines_eq outcome
  have hwritten : ∀ output ∈ traced.outputs, output.IsWritten :=
    (session.withTrace true).runLines_isWritten .empty (splitLines input)
  have hreply := objects_outputBytes fun reply hmem => hwritten reply (traced.replies_subset hmem)
  have houtput := objects_outputBytes hwritten
  rw [hobjects, ← Run.replies_untraced] at hreply
  rw [Run.filter_outputs, hobjects, ← Run.outputs_untraced] at houtput
  rw [hplain]
  refine ⟨rfl, rfl, rfl, rfl, ?_, hreply, houtput, ?_, ?_⟩
  · rw [Run.untraced, List.map_map]
    rfl
  · rw [requests_executeProgram]
    simp [objects, Outcome.traceLines, List.length_flatMap]
  · intro object hobject
    obtain ⟨outcome, -, hline⟩ := List.mem_flatMap.1 hobject
    obtain ⟨request, -, rfl⟩ := List.mem_map.1 hline
    obtain ⟨entries, htable⟩ :=
      request.traceDocument_eq_table outcome.settings.table.mmPerArcSegment
    exact ⟨entries, by rw [htable]⟩

end Gcode
