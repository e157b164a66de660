import Gcode.Proofs.Document.Json
import Gcode.Proofs.Program.Effect
import Gcode.Proofs.Session.Input
import Gcode.Proofs.Session.Lines
import Mathlib.Data.List.SplitBy

/-!
# What a run writes

A run writes whole lines, and the lines that begin with a brace are its requests, each on a line of
its own: a status begins with a small letter, and a listing has only lines that begin with `$` or
`'`.
-/

namespace Gcode

/-! ## Lines of bytes -/

def writtenLines (bytes : List UInt8) : List (List UInt8) := bytes.splitBy fun byte _ => byte != 10

def isObjectLine (line : List UInt8) : Bool := line.head? == some 0x7b

def objectLines (bytes : List UInt8) : List (List UInt8) := (writtenLines bytes).filter isObjectLine

def withoutObjects (bytes : List UInt8) : List UInt8 :=
  ((writtenLines bytes).filter (!isObjectLine ·)).flatten

theorem writtenLines_append {before after : List UInt8} (hends : EndsLine before after) :
    writtenLines (before ++ after) = writtenLines before ++ writtenLines after := by
  refine List.splitBy_append fun last hlast next hnext => ?_
  rcases hends with rfl | hfeed | rfl
  · simp at hlast
  · obtain rfl : 10 = last := Option.some.inj (hfeed.symm.trans hlast)
    rfl
  · simp at hnext

theorem writtenLines_line {piece : List UInt8} (hfeed : 10 ∉ piece) :
    writtenLines (piece ++ [10]) = [piece ++ [10]] := by
  refine List.splitBy_of_isChain (by simp) ?_
  induction piece with
  | nil => simp
  | cons byte piece ih =>
      obtain ⟨hbyte, hpiece⟩ := not_or.1 (mt List.mem_cons.2 hfeed)
      refine List.isChain_cons.2 ⟨fun next _ => ?_, ih hpiece⟩
      simpa using Ne.symm hbyte

theorem writtenLines_flatten {lines : List (List UInt8)}
    (h : ∀ line ∈ lines, ∃ piece, 10 ∉ piece ∧ line = piece ++ [10]) :
    writtenLines lines.flatten = lines := by
  induction lines with
  | nil => rfl
  | cons line lines ih =>
      obtain ⟨⟨piece, hfeed, rfl⟩, hlines⟩ := List.forall_mem_cons.1 h
      rw [List.flatten_cons, writtenLines_append (.inr (.inl List.getLast?_concat)),
        writtenLines_line hfeed, ih hlines]
      rfl

/-! ## Lines of text -/

theorem feed_not_mem_encodeText {text : List Char} (h : '\n' ∉ text) : 10 ∉ encodeText text := by
  rw [encodeText, List.mem_flatMap]
  rintro ⟨c, hc, hfeed⟩
  exact feed_not_mem_utf8EncodeChar (fun hnewline => h (hnewline ▸ hc)) hfeed

def encodeLines (lines : List (List Char)) : List UInt8 := encodeText (lines.flatMap (· ++ ['\n']))

theorem encodeLines_eq (lines : List (List Char)) :
    encodeLines lines = (lines.map fun line => encodeText line ++ [10]).flatten := by
  rw [encodeLines, encodeText, List.flatMap_assoc, List.flatMap_def]
  exact congrArg List.flatten (List.map_congr_left fun line _ => encodeText_append line ['\n'])

theorem writtenLines_encodeLines {lines : List (List Char)} (h : ∀ line ∈ lines, '\n' ∉ line) :
    writtenLines (encodeLines lines) = lines.map fun line => encodeText line ++ [10] := by
  rw [encodeLines_eq]
  refine writtenLines_flatten fun bytes hbytes => ?_
  obtain ⟨line, hline, rfl⟩ := List.mem_map.1 hbytes
  exact ⟨encodeText line, feed_not_mem_encodeText (h line hline), rfl⟩

/-! ## Plain text -/

/-- The text is made of whole lines that begin with no brace. -/
def IsPlain (text : String) : Prop :=
  ∃ lines : List (List Char), text.toList = lines.flatMap (· ++ ['\n']) ∧
    ∀ line ∈ lines, '\n' ∉ line ∧ line.head? ≠ some '\x7b'

theorem isObjectLine_of_head {line : List Char} (h : line.head? ≠ some '\x7b') :
    isObjectLine (encodeText line ++ [10]) = false := by
  cases line with
  | nil => rfl
  | cons c rest =>
      have hbrace : c.val.toNat ≠ 0x7b := by
        rintro hcode
        exact h (congrArg some (Char.ext (UInt32.toNat_inj.1 hcode)))
      have hbytes := ascii_not_mem_utf8EncodeChar (by decide) hbrace
      have hencode : encodeText (c :: rest) = String.utf8EncodeChar c ++ encodeText rest := rfl
      rw [hencode]
      cases hc : String.utf8EncodeChar c with
      | nil => exact absurd hc String.utf8EncodeChar_ne_nil
      | cons first others =>
          rw [hc] at hbytes
          have hfirst : first ≠ 0x7b := Ne.symm (not_or.1 (mt List.mem_cons.2 hbytes)).1
          simpa [isObjectLine] using hfirst

namespace IsPlain

theorem empty : IsPlain "" := ⟨[], rfl, by simp⟩

theorem append {first second : String} (hfirst : IsPlain first) (hsecond : IsPlain second) :
    IsPlain (first ++ second) := by
  obtain ⟨lines, hlines, hplain⟩ := hfirst
  obtain ⟨others, hothers, hotherPlain⟩ := hsecond
  refine ⟨lines ++ others, by simp [hlines, hothers], fun line hline => ?_⟩
  exact (List.mem_append.1 hline).elim (hplain line) (hotherPlain line)

theorem of_line {text : String} (line : List Char) (htext : text.toList = line ++ ['\n'])
    (hfeed : '\n' ∉ line) (hhead : line.head? ≠ some '\x7b') : IsPlain text :=
  ⟨[line], by simpa using htext, by simpa using ⟨hfeed, hhead⟩⟩

theorem join {texts : List String} (h : ∀ text ∈ texts, IsPlain text) :
    IsPlain (String.join texts) := by
  induction texts with
  | nil => exact empty
  | cons text texts ih =>
      obtain ⟨htext, htexts⟩ := List.forall_mem_cons.1 h
      rw [String.join_cons]
      exact htext.append (ih htexts)

variable {text : String} (plain : IsPlain text)
include plain

theorem endsLine (after : List UInt8) : EndsLine (encodeText text.toList) after := by
  obtain ⟨lines, htext, -⟩ := plain
  rw [htext]
  rcases lines.eq_nil_or_concat with rfl | ⟨others, line, rfl⟩
  · exact .inl rfl
  · refine .inr (.inl ?_)
    rw [List.concat_eq_append, List.flatMap_append, encodeText_append, List.flatMap_singleton,
      encodeText_append, ← List.append_assoc]
    exact List.getLast?_concat

theorem isObjectLine_eq_false {line : List UInt8}
    (hline : line ∈ writtenLines (encodeText text.toList)) : isObjectLine line = false := by
  obtain ⟨lines, htext, hlines⟩ := plain
  rw [htext, ← encodeLines, writtenLines_encodeLines fun line hline => (hlines line hline).1,
    List.mem_map] at hline
  obtain ⟨line, hmem, rfl⟩ := hline
  exact isObjectLine_of_head (hlines line hmem).2

end IsPlain

/-! ## Listings -/

theorem newline_not_mem_fixedText (places : Nat) (value : Float) :
    '\n' ∉ (fixedText places value).toList := by
  unfold fixedText
  split
  · next negative magnitude _ =>
      let decimal := Decimal.atPlaces places magnitude
      have hwell : (Layout.positionalNumeral none negative decimal).WellFormed :=
        Layout.positionalNumeral_wellFormed (by simp) negative _
      rw [String.toList_ofList]
      exact hwell.newline_not_mem
  · rcases @Layout.text_cases .plain (by simp [Layout.plain]) value with
      hword | ⟨numeral, hwell, htext⟩
    · have hplain : ∀ word ∈ [Layout.plain.nan, Layout.plain.infinite,
          Layout.plain.negativeInfinite], '\n' ∉ word.toList := by decide
      exact hplain _ hword
    · rw [plainText, htext]
      exact hwell.newline_not_mem

theorem newline_not_mem_toString (n : Nat) : '\n' ∉ (toString n).toList := by
  have hdigits : (toString n).toList = Nat.toDigits 10 n := by simp
  rw [hdigits]
  exact (allDigits_toDigits n).newline_not_mem

namespace SettingsTable

theorem newline_not_mem_binaryDigits (byte : UInt8) : '\n' ∉ (binaryDigits byte).toList := by
  have hdigits : '\n' ∉ Nat.toDigits 2 byte.toNat := fun hc =>
    absurd (Nat.isDigit_of_mem_toDigits (by decide) (by decide) hc) (by decide)
  simp [binaryDigits, hdigits]

theorem isPlain_assignment (index : Nat) (shown : String) (h : '\n' ∉ shown.toList) :
    IsPlain ("$" ++ toString index ++ " = " ++ shown ++ ")\n") :=
  .of_line ('$' :: ((toString index).toList ++ " = ".toList ++ shown.toList ++ [')']))
    (by simp) (by simpa [h] using newline_not_mem_toString index) (by simp)

theorem isPlain_reportLine (table : SettingsTable) (setting : Setting) :
    IsPlain (table.reportLine setting) := by
  have hdescription : '\n' ∉ setting.description.toList := by
    cases setting with
    | stepsPerMm axis => cases axis <;> decide
    | _ => decide
  unfold reportLine
  split
  · have hmask := newline_not_mem_toString table.invertMask.toNat
    have hbinary := newline_not_mem_binaryDigits table.invertMask
    have hplain := isPlain_assignment Setting.invertMask.index.toNat
      (toString table.invertMask.toNat ++ " (" ++ Setting.invertMask.description ++
        ", binary = " ++ binaryDigits table.invertMask)
      (by simp only [String.toList_append, List.mem_append, not_or]
          exact ⟨⟨⟨⟨hmask, by decide⟩, hdescription⟩, by decide⟩, hbinary⟩)
    simpa only [String.append_assoc] using hplain
  · have hvalue := newline_not_mem_fixedText 3 (table.value setting)
    have hplain := isPlain_assignment setting.index.toNat
      (fixedText 3 (table.value setting) ++ " (" ++ setting.description)
      (by simp only [String.toList_append, List.mem_append, not_or]
          exact ⟨⟨hvalue, by decide⟩, hdescription⟩)
    simpa only [String.append_assoc] using hplain

theorem isPlain_report (table : SettingsTable) : IsPlain table.report := by
  refine (IsPlain.join fun text htext => ?_).append
    (.of_line "'$x=value' to set parameter or just '$' to dump current settings".toList
      (by decide) (by decide) (by decide))
  obtain ⟨setting, -, rfl⟩ := List.mem_map.1 htext
  exact table.isPlain_reportLine setting

end SettingsTable

/-! ## Requests -/

theorem Request.traceDocument_eq_table (request : Request) (reach : Float) :
    ∃ entries, request.traceDocument reach = .table entries := by
  unfold traceDocument
  simp only [Document.record, Document.sortKeys]
  exact ⟨_, rfl⟩

theorem Json.write_table (style : Style) (entries : List (List Char × Document)) :
    ∃ rest, write style (.table entries) = '\x7b' :: rest := by
  cases entries with
  | nil => exact ⟨_, rfl⟩
  | cons entry entries => exact ⟨_, by simp [write, writeAt]; rfl⟩

namespace Output

def bytes (output : Output) : List UInt8 := encodeText output.text.toList

def isRequest : Output → Bool
  | request _ _ => true
  | _ => false

/-- An output is a request on a line of its own or plain text. -/
def IsWritten (output : Output) : Prop := output.isRequest = true ∨ IsPlain output.text

theorem bytes_request (shown : Request) (reach : Float) :
    (request shown reach).bytes =
      encodeText (Json.write .compact (shown.traceDocument reach)) ++ [10] := by
  rw [bytes, text, String.toList_append, String.toList_ofList, encodeText_append]
  rfl

theorem writtenLines_request (shown : Request) (reach : Float) :
    writtenLines (request shown reach).bytes = [(request shown reach).bytes] := by
  rw [bytes_request]
  exact writtenLines_line (feed_not_mem_encodeText (Json.newline_not_mem_writeAt 0 _))

theorem isObjectLine_request (shown : Request) (reach : Float) :
    isObjectLine (request shown reach).bytes = true := by
  obtain ⟨entries, htable⟩ := shown.traceDocument_eq_table reach
  obtain ⟨rest, hrest⟩ := Json.write_table .compact entries
  rw [bytes_request, htable, hrest]
  rfl

theorem isPlain_status (code : StatusCode) : IsPlain (status code).text :=
  .of_line code.reply.toList (by simp [text]) (by cases code <;> decide)
    (by cases code <;> decide)

theorem IsWritten.endsLine {output : Output} (written : output.IsWritten) (after : List UInt8) :
    EndsLine output.bytes after := by
  rcases written with hrequest | hplain
  · cases output with
    | request shown reach => exact .inr (.inl (by rw [bytes_request, List.getLast?_concat]))
    | _ => contradiction
  · exact hplain.endsLine after

theorem IsWritten.isObjectLine_eq {output : Output} (written : output.IsWritten)
    {line : List UInt8} (hline : line ∈ writtenLines output.bytes) :
    isObjectLine line = output.isRequest := by
  cases output with
  | request shown reach =>
      rw [writtenLines_request] at hline
      obtain rfl := List.mem_singleton.1 hline
      exact isObjectLine_request shown reach
  | message | status =>
      exact (written.resolve_left Bool.false_ne_true).isObjectLine_eq_false hline

theorem IsWritten.objectLines_bytes {output : Output} (written : output.IsWritten) :
    objectLines output.bytes = if output.isRequest then [output.bytes] else [] := by
  rw [objectLines, List.filter_congr fun line hline => written.isObjectLine_eq hline]
  cases output with
  | request shown reach => exact (List.filter_true _).trans (writtenLines_request shown reach)
  | message | status => exact List.filter_false _

theorem IsWritten.withoutObjects_bytes {output : Output} (written : output.IsWritten) :
    withoutObjects output.bytes = if output.isRequest then [] else output.bytes := by
  rw [withoutObjects,
    List.filter_congr fun line hline => congrArg not (written.isObjectLine_eq hline)]
  cases output with
  | request shown reach => exact congrArg List.flatten (List.filter_false _)
  | message | status =>
      exact (congrArg List.flatten (List.filter_true _)).trans (List.flatten_splitBy _ _)

end Output

/-! ## Outputs -/

def outputBytes (outputs : List Output) : List UInt8 := outputs.flatMap Output.bytes

theorem objectLines_append {before after : List UInt8} (hends : EndsLine before after) :
    objectLines (before ++ after) = objectLines before ++ objectLines after := by
  rw [objectLines, writtenLines_append hends, List.filter_append]
  rfl

theorem withoutObjects_append {before after : List UInt8} (hends : EndsLine before after) :
    withoutObjects (before ++ after) = withoutObjects before ++ withoutObjects after := by
  rw [withoutObjects, writtenLines_append hends, List.filter_append, List.flatten_append]
  rfl

theorem outputBytes_cons (output : Output) (outputs : List Output) :
    outputBytes (output :: outputs) = output.bytes ++ outputBytes outputs := List.flatMap_cons

theorem objects_outputBytes {outputs : List Output}
    (written : ∀ output ∈ outputs, output.IsWritten) :
    objectLines (outputBytes outputs) = (outputs.filter Output.isRequest).map Output.bytes ∧
      withoutObjects (outputBytes outputs) = outputBytes (outputs.filter (!·.isRequest)) := by
  induction outputs with
  | nil => exact ⟨rfl, rfl⟩
  | cons output outputs ih =>
      obtain ⟨houtput, houtputs⟩ := List.forall_mem_cons.1 written
      obtain ⟨hobjects, hothers⟩ := ih houtputs
      have hends := houtput.endsLine (outputBytes outputs)
      rw [outputBytes_cons, objectLines_append hends, withoutObjects_append hends, hobjects,
        hothers, houtput.objectLines_bytes, houtput.withoutObjects_bytes, List.filter_cons,
        List.filter_cons]
      cases output.isRequest <;> exact ⟨rfl, rfl⟩

/-! ## Replies -/

def Outcome.traceLines (outcome : Outcome LiveSettings) : List (List UInt8) :=
  outcome.requests.map fun request =>
    encodeText (Json.write .compact
      (request.traceDocument outcome.settings.table.mmPerArcSegment)) ++ [10]

theorem execute_listing (line : List Char) (state : ModalState) {settings : LiveSettings}
    (unlisted : settings.listing = "") :
    IsPlain (execute line state settings).settings.listing := by
  have hempty : IsPlain settings.listing := unlisted ▸ .empty
  have heffect := execute_lineEffect line state settings
  generalize execute line state settings = outcome at heffect ⊢
  cases heffect with
  | comment | fault | impossible | success => exact hempty
  | statement =>
      rcases executeSettings_cases line settings with
        ⟨error, -, hsame⟩ | ⟨statement, -, hafter, -⟩
      · rwa [hsame]
      · rw [hafter]
        cases statement with
        | list =>
            rw [LiveSettings.perform, LiveSettings.list]
            exact hempty.append settings.table.isPlain_report
        | store index value =>
            rcases settings.store_cases index value with
              ⟨error, -, hstore⟩ | ⟨table, -, hstore⟩ <;> rwa [LiveSettings.perform, hstore]

namespace Session

theorem isWritten_of_mem_answer {showTrace : Bool} {outcome : Outcome LiveSettings} {reply : Output}
    (hreply : reply ∈ answer showTrace outcome) : reply.IsWritten := by
  rcases List.mem_append.1 hreply with hrequest | hstatus
  · cases showTrace with
    | false => simp at hrequest
    | true =>
        obtain ⟨request, -, rfl⟩ := List.mem_map.1 hrequest
        exact .inl rfl
  · obtain rfl := List.mem_singleton.1 hstatus
    exact .inr (Output.isPlain_status _)

theorem execute_isWritten (session : Session) (raw : List Char) :
    IsPlain (session.execute raw).listing ∧
      ∀ reply ∈ (session.execute raw).replies, reply.IsWritten := by
  by_cases hblank : normalized raw = []
  · rw [execute_of_blank hblank]
    exact ⟨.empty, by simp⟩
  · obtain ⟨-, hreplies, -⟩ := execute_of_line hblank session
    constructor
    · rw [execute, if_neg hblank]
      exact execute_listing _ _ rfl
    · rw [hreplies]
      exact fun reply hreply => isWritten_of_mem_answer hreply

theorem runLines_isWritten (session : Session) (summary : Tally) (lines : List (List UInt8)) :
    ∀ output ∈ (session.runLines summary lines).outputs, output.IsWritten := by
  induction lines generalizing session summary with
  | nil => simp [runLines, Run.outputs]
  | cons bytes lines ih =>
      rw [runLines]
      cases decodeLine bytes with
      | none => simp [Run.outputs]
      | some raw =>
          obtain ⟨hlisting, hreplies⟩ := session.execute_isWritten raw
          simp only [Run.outputs, List.flatMap_cons, List.forall_mem_append]
          refine ⟨⟨fun output houtput => ?_, hreplies⟩, ih _ _⟩
          split at houtput
          · simp at houtput
          · obtain rfl := List.mem_singleton.1 houtput
            exact .inr hlisting

end Session

end Gcode
