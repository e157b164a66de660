import Gcode.Proofs.Program.Interleaving
import Gcode.Proofs.Settings.Live
import Gcode.Session

/-!
# The lines of a session

A session executes what is left of a raw line, if anything is.  So it runs a program:
`Session.after_eq` says that raw lines leave what `executeProgram` leaves of the program in them,
and `Session.execute_of_line` that each line is answered from its own outcome.
-/

namespace Gcode

/-! ## Listings

A session executes each line under an empty listing and puts together what was listed.  No line
reads the listing, so this is the same as going on with the listing so far. -/

def LiveSettings.listedAfter (settings : LiveSettings) (listed : String) : LiveSettings :=
  { settings with listing := listed ++ settings.listing }

namespace LiveSettings

variable (settings : LiveSettings) (listed : String)

theorem list_listedAfter :
    (settings.listedAfter listed).list = settings.list.listedAfter listed := by
  simp [list, listedAfter, String.append_assoc]

theorem store_listedAfter (index : UInt32) (value : Float) :
    (settings.listedAfter listed).store index value =
      ((settings.store index value).1, (settings.store index value).2.listedAfter listed) := by
  rcases settings.store_cases index value with ⟨error, hset, hstore⟩ | ⟨table, hset, hstore⟩
  · rcases (settings.listedAfter listed).store_cases index value with
      ⟨again, hagain, hafter⟩ | ⟨again, hagain, -⟩
    · obtain rfl := Except.error.inj (hset.symm.trans hagain)
      rw [hstore, hafter]
    · exact absurd (hset.symm.trans hagain) (by simp)
  · rcases (settings.listedAfter listed).store_cases index value with
      ⟨again, hagain, -⟩ | ⟨again, hagain, hafter⟩
    · exact absurd (hset.symm.trans hagain) (by simp)
    · obtain rfl := Except.ok.inj (hset.symm.trans hagain)
      rw [hstore, hafter]
      rfl

end LiveSettings

theorem executeSettings_listedAfter (line : List Char) (settings : LiveSettings)
    (listed : String) :
    executeSettings line (settings.listedAfter listed) =
      ((executeSettings line settings).1,
        (executeSettings line settings).2.listedAfter listed) := by
  unfold executeSettings
  cases SettingsStatement.parse line with
  | error error => rfl
  | ok statement =>
      cases statement with
      | list => simp only [SettingsHost.list, settings.list_listedAfter listed]
      | store index value =>
          simp only [SettingsHost.store, settings.store_listedAfter listed]
          cases (settings.store index value).1 <;> rfl

theorem execute_listedAfter (line : List Char) (state : ModalState) (settings : LiveSettings)
    (listed : String) :
    execute line state (settings.listedAfter listed) =
      let outcome := execute line state settings
      { outcome with settings := outcome.settings.listedAfter listed } := by
  cases hline : isSettingsStatement line with
  | false =>
      rw [execute_of_not_settings hline state settings, execute_of_not_settings hline state settings
        settings]
  | true =>
      obtain ⟨rest, rfl⟩ := List.head?_eq_some_iff.1 (beq_iff_eq.1 hline)
      simp only [execute, executeSettings_listedAfter]

/-! ## One line -/

def programLines (raws : List (List Char)) : List (List Char) :=
  (raws.map normalized).filter (· ≠ [])

theorem programLines_of_blank {raw : List Char} (blank : normalized raw = [])
    (raws : List (List Char)) : programLines (raw :: raws) = programLines raws := by
  simp [programLines, blank]

theorem programLines_of_line {raw : List Char} (line : normalized raw ≠ [])
    (raws : List (List Char)) :
    programLines (raw :: raws) = normalized raw :: programLines raws := by
  simp [programLines, line]

namespace Session

def leaving (session : Session) (outcome : Outcome LiveSettings) : Session :=
  { session with state := outcome.state, settings := outcome.settings }

def answer (showTrace : Bool) (outcome : Outcome LiveSettings) : List Output :=
  (if showTrace then
    outcome.requests.map (Output.request · outcome.settings.table.mmPerArcSegment)
  else []) ++ [.status outcome.status]

theorem execute_of_blank {raw : List Char} (blank : normalized raw = []) (session : Session) :
    session.execute raw = { session, listing := "", replies := [], status := none } := by
  rw [execute, if_pos blank]

theorem execute_of_line {raw : List Char} (line : normalized raw ≠ []) (session : Session) :
    let outcome := Gcode.execute (normalized raw) session.state session.settings
    (session.execute raw).session = session.leaving outcome ∧
      (session.execute raw).replies = answer session.showTrace outcome ∧
      (session.execute raw).status = some outcome.status := by
  obtain ⟨state, settings, showTrace, log, rfl⟩ := session
  intro outcome
  let bare := Gcode.execute (normalized raw) state { settings with listing := "" }
  have hlisted :
      outcome = { bare with settings := bare.settings.listedAfter settings.listing } := by
    rw [← execute_listedAfter]
    simp [LiveSettings.listedAfter, outcome]
  have htaken : (RequestLog.empty.recordAll bare.requests).take.1 = bare.requests :=
    RequestLog.requests_recordAll .empty bare.requests
  rw [execute, if_neg line, hlisted]
  exact ⟨rfl, congrArg (fun requests => answer showTrace { bare with requests }) htaken, rfl⟩

def after (session : Session) (raws : List (List Char)) : Session :=
  raws.foldl (fun current raw => (current.execute raw).session) session

theorem after_eq (session : Session) (raws : List (List Char)) :
    session.after raws =
      session.leaving (executeProgram (programLines raws) session.state session.settings) := by
  induction raws generalizing session with
  | nil => rfl
  | cons raw raws ih =>
      change (session.execute raw).session.after raws = _
      rw [ih]
      by_cases hblank : normalized raw = []
      · rw [execute_of_blank hblank, programLines_of_blank hblank]
      · rw [(execute_of_line hblank session).1, programLines_of_line hblank]
        rfl

end Session

end Gcode
