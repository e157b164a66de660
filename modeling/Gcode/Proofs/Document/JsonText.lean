import Gcode.Proofs.Document.Json
import Gcode.Proofs.Double.Printing

/-!
# Different documents, different texts

On one line no two documents are written alike, if their doubles are finite and all their parts have
a value in JSON.  This holds whatever the reader makes of a number: a text shows where each part
ends, and the numerals of different numbers differ.
-/

namespace Gcode.Json

/-! ## Parts of a text -/

theorem numeral_cancel {first second : Numeral} (hfirst : first.WellFormed)
    (hsecond : second.WellFormed) {rest rest' : List Char} (hrest : StopsNumber rest)
    (hrest' : StopsNumber rest') (hsame : first.text ++ rest = second.text ++ rest') :
    first = second ∧ rest = rest' := by
  have hscan := Numeral.scanNumeral_suffix hfirst (first.stopsBefore_of_head hrest)
  rw [hsame, Numeral.scanNumeral_suffix hsecond (second.stopsBefore_of_head hrest')] at hscan
  obtain ⟨hnumeral, hafter⟩ := Prod.mk.inj (Option.some.inj hscan)
  exact ⟨hnumeral.symm, hafter.symm⟩

theorem writeString_cancel {text text' rest rest' : List Char}
    (hsame : writeString text ++ rest = writeString text' ++ rest') :
    text = text' ∧ rest = rest' := by
  simp only [writeString, List.cons_append, List.append_assoc, List.nil_append, List.cons.injEq,
    true_and] at hsame
  have hscan := scanString_flatMap_escape text rest
  rw [hsame, scanString_flatMap_escape] at hscan
  obtain ⟨hunits, hafter⟩ := Prod.mk.inj (Option.some.inj hscan)
  have htext := congrArg decodeUnits hunits
  rw [decodeUnits_map_unitOf, decodeUnits_map_unitOf] at htext
  exact ⟨(Option.some.inj htext).symm, hafter.symm⟩

theorem integerNumeral_injective {first second : Int}
    (hsame : integerNumeral first = integerNumeral second) : first = second := by
  have hnegative := congrArg Numeral.negative hsame
  have hdigits := congrArg digitsValue (congrArg Numeral.whole hsame)
  simp only [integerNumeral, Numeral.negative, Layout.signOf_beq_minus, digitsValue_toDigits,
    decide_eq_decide] at hnegative hdigits
  omega

theorem numeral_ne_integerNumeral (negative : Bool) (decimal : Decimal) (value : Int) :
    layout.numeral negative decimal ≠ integerNumeral value := by
  intro hsame
  unfold Layout.numeral at hsame
  split at hsame
  · have hfraction := congrArg Numeral.fraction hsame
    simp only [Layout.positionalNumeral, integerNumeral, layout] at hfraction
    split at hfraction
    · contradiction
    · split at hfraction <;> contradiction
  · have hexponent := congrArg Numeral.exponent hsame
    contradiction

theorem exists_numeral_float {value : Float} (hfinite : value.isFinite = true) :
    ∃ numeral : Numeral, numeral.WellFormed ∧ (layout.text value).toList = numeral.text ∧
      ∀ number, numeral ≠ integerNumeral number := by
  obtain ⟨negative, magnitude, hparts⟩ := Double.isFinite_iff.1 hfinite
  refine ⟨layout.numeral negative (.shortest layout.tie magnitude),
    Layout.numeral_wellFormed layout_wholeFraction _ _, ?_, numeral_ne_integerNumeral _ _⟩
  rw [Layout.text, hparts, String.toList_ofList]

theorem text_float_inj {first second : Float} (hfirst : first.isFinite = true)
    (hsecond : second.isFinite = true)
    (hsame : (layout.text first).toList = (layout.text second).toList) : first = second := by
  refine Layout.text_inj ?_ hfirst hsecond (String.toList_inj.1 hsame)
  rintro digits ⟨⟩
  exact ⟨1, rfl⟩

/-! ## Documents -/

mutual

/-- Whether every part of a document has a value in JSON: whole numbers have 64 bits, and doubles
are as they have to be. -/
def IsPlain (isGood : Float → Prop) : Document → Prop
  | .null | .boolean _ | .text _ => True
  | .integer value => -0x8000000000000000 ≤ value ∧ value < 0x10000000000000000
  | .float value => isGood value
  | .list items => ArePlain isGood items
  | .table entries => ArePlainEntries isGood entries
  | .moment | .unreadable => False

def ArePlain (isGood : Float → Prop) : List Document → Prop
  | [] => True
  | item :: items => IsPlain isGood item ∧ ArePlain isGood items

def ArePlainEntries (isGood : Float → Prop) : List (List Char × Document) → Prop
  | [] => True
  | (_, value) :: entries => IsPlain isGood value ∧ ArePlainEntries isGood entries

end

mutual

theorem IsPlain.isKept {document : Document} (h : IsPlain ReadsBack document) :
    IsKept document := by
  match document with
  | .null | .boolean _ | .text _ => trivial
  | .integer _ | .float _ => exact h
  | .list _ => exact ArePlain.areKept h
  | .table _ => exact ArePlainEntries.areKept h

theorem ArePlain.areKept {items : List Document} (h : ArePlain ReadsBack items) :
    AreKept items := by
  match items with
  | [] => trivial
  | _ :: _ => exact ⟨h.1.isKept, h.2.areKept⟩

theorem ArePlainEntries.areKept {entries : List (List Char × Document)}
    (h : ArePlainEntries ReadsBack entries) : AreKeptEntries entries := by
  match entries with
  | [] => trivial
  | (_, _) :: _ => exact ⟨h.1.isKept, h.2.areKept⟩

end

/-- Whether a document is written as no other is. -/
abbrev IsDefinite : Document → Prop := IsPlain (·.isFinite = true)

def opening : Document → Char
  | .null | .moment | .unreadable => 'n'
  | .boolean true => 't'
  | .boolean false => 'f'
  | .integer _ | .float _ => '0'
  | .text _ => '"'
  | .list _ => '['
  | .table _ => '\x7b'

theorem opening_eq {document : Document} (h : IsDefinite document) (depth : Nat) :
    ∃ c text, writeAt .compact depth document = c :: text ∧
      opening document = if isNumeralChar c then '0' else c := by
  have hnumeral {numeral : Numeral} (hwell : numeral.WellFormed) :
      ∃ c text, numeral.text = c :: text ∧ '0' = if isNumeralChar c then '0' else c := by
    obtain ⟨c, text, hc, htext⟩ := hwell.exists_head
    exact ⟨c, text, htext, by rw [if_pos hc]⟩
  match document with
  | .null => exact ⟨'n', _, rfl, rfl⟩
  | .boolean true => exact ⟨'t', _, rfl, rfl⟩
  | .boolean false => exact ⟨'f', _, rfl, rfl⟩
  | .text _ => exact ⟨'"', _, rfl, rfl⟩
  | .list [] => exact ⟨'[', _, rfl, rfl⟩
  | .table [] => exact ⟨'\x7b', _, rfl, rfl⟩
  | .list (_ :: _) => exact ⟨'[', _, rfl, rfl⟩
  | .table ((_, _) :: _) => exact ⟨'\x7b', _, rfl, rfl⟩
  | .integer value =>
      rw [writeAt, ← text_integerNumeral]
      exact hnumeral (integerNumeral_wellFormed value)
  | .float value =>
      obtain ⟨numeral, hwell, htext, -⟩ := exists_numeral_float h
      rw [writeAt, htext]
      exact hnumeral hwell

theorem opening_eq_of_same {first second : Document} (hfirst : IsDefinite first)
    (hsecond : IsDefinite second) {depth : Nat} {rest rest' : List Char}
    (hsame : writeAt .compact depth first ++ rest = writeAt .compact depth second ++ rest') :
    opening first = opening second := by
  obtain ⟨c, text, htext, hopening⟩ := opening_eq hfirst depth
  obtain ⟨c', text', htext', hopening'⟩ := opening_eq hsecond depth
  rw [htext, htext'] at hsame
  rw [hopening, hopening', (List.cons.inj hsame).1]

theorem of_opening {document : Document} (h : IsDefinite document) :
    (opening document = 'n' → document = .null) ∧
    (opening document = 't' → document = .boolean true) ∧
    (opening document = 'f' → document = .boolean false) ∧
    (opening document = '0' →
      (∃ value, document = .integer value) ∨ ∃ value, document = .float value) ∧
    (opening document = '"' → ∃ text, document = .text text) ∧
    (opening document = '[' → ∃ items, document = .list items) ∧
    (opening document = '\x7b' → ∃ entries, document = .table entries) := by
  match document with
  | .null | .boolean true | .boolean false | .integer _ | .float _ | .text _ | .list _ | .table _ =>
      simp [opening]

theorem writeAt_list_ne (depth : Nat) (item : Document) (items : List Document)
    (rest rest' : List Char) :
    writeAt .compact depth (.list (item :: items)) ++ rest ≠
      writeAt .compact depth (.list []) ++ rest' := by
  obtain ⟨c, text, -, hclose, htext⟩ := exists_head_writeAt .compact (depth + 1) item
  simp [writeAt, Style.break, htext, hclose]

theorem writeAt_table_ne (depth : Nat) (entry : List Char × Document)
    (entries : List (List Char × Document)) (rest rest' : List Char) :
    writeAt .compact depth (.table (entry :: entries)) ++ rest ≠
      writeAt .compact depth (.table []) ++ rest' := by
  simp [writeAt, Style.break, writeString]

mutual

theorem writeAt_cancel (depth : Nat) {first second : Document} (hfirst : IsDefinite first)
    (hsecond : IsDefinite second) {rest rest' : List Char} (hrest : StopsNumber rest)
    (hrest' : StopsNumber rest')
    (hsame : writeAt .compact depth first ++ rest = writeAt .compact depth second ++ rest') :
    first = second ∧ rest = rest' := by
  have hopening := (opening_eq_of_same hfirst hsecond hsame).symm
  obtain ⟨hnull, htrue, hfalse, hnumber, hstring, hlist, htable⟩ := of_opening hsecond
  match first with
  | .null =>
      obtain rfl := hnull hopening
      exact ⟨rfl, List.append_cancel_left hsame⟩
  | .boolean true =>
      obtain rfl := htrue hopening
      exact ⟨rfl, List.append_cancel_left hsame⟩
  | .boolean false =>
      obtain rfl := hfalse hopening
      exact ⟨rfl, List.append_cancel_left hsame⟩
  | .integer value =>
      rw [writeAt, ← text_integerNumeral] at hsame
      rcases hnumber hopening with ⟨value', rfl⟩ | ⟨value', rfl⟩
      · rw [writeAt, ← text_integerNumeral] at hsame
        obtain ⟨hnumeral, hafter⟩ := numeral_cancel (integerNumeral_wellFormed value)
          (integerNumeral_wellFormed value') hrest hrest' hsame
        exact ⟨congrArg _ (integerNumeral_injective hnumeral), hafter⟩
      · obtain ⟨numeral, hwell, htext, hdiffers⟩ := exists_numeral_float hsecond
        rw [writeAt, htext] at hsame
        obtain ⟨hnumeral, -⟩ := numeral_cancel (integerNumeral_wellFormed value) hwell hrest hrest'
          hsame
        exact absurd hnumeral.symm (hdiffers value)
  | .float value =>
      obtain ⟨numeral, hwell, htext, hdiffers⟩ := exists_numeral_float hfirst
      rw [writeAt, htext] at hsame
      rcases hnumber hopening with ⟨value', rfl⟩ | ⟨value', rfl⟩
      · rw [writeAt, ← text_integerNumeral] at hsame
        obtain ⟨hnumeral, -⟩ := numeral_cancel hwell (integerNumeral_wellFormed value') hrest hrest'
          hsame
        exact absurd hnumeral (hdiffers value')
      · obtain ⟨numeral', hwell', htext', -⟩ := exists_numeral_float hsecond
        rw [writeAt, htext'] at hsame
        obtain ⟨rfl, hafter⟩ := numeral_cancel hwell hwell' hrest hrest' hsame
        exact ⟨congrArg _ (text_float_inj hfirst hsecond (htext.trans htext'.symm)), hafter⟩
  | .text text =>
      obtain ⟨text', rfl⟩ := hstring hopening
      obtain ⟨rfl, hafter⟩ := writeString_cancel hsame
      exact ⟨rfl, hafter⟩
  | .list [] =>
      obtain ⟨items', rfl⟩ := hlist hopening
      cases items' with
      | nil => exact ⟨rfl, List.append_cancel_left hsame⟩
      | cons item' items' => exact absurd hsame.symm (writeAt_list_ne depth item' items' rest' rest)
  | .list (item :: items) =>
      obtain ⟨items', rfl⟩ := hlist hopening
      cases items' with
      | nil => exact absurd hsame (writeAt_list_ne depth item items rest rest')
      | cons item' items' =>
          simp only [writeAt, Style.break, List.append_assoc, List.nil_append, List.cons_append,
            List.cons.injEq, true_and] at hsame
          obtain ⟨rfl, hitems⟩ := writeAt_cancel (depth + 1) hfirst.1 hsecond.1
            (stopsNumber_writeItems .compact (depth + 1) depth items rest)
            (stopsNumber_writeItems .compact (depth + 1) depth items' rest') hsame
          obtain ⟨rfl, hafter⟩ := writeItems_cancel (depth + 1) hfirst.2 hsecond.2 hitems
          exact ⟨rfl, hafter⟩
  | .table [] =>
      obtain ⟨entries', rfl⟩ := htable hopening
      cases entries' with
      | nil => exact ⟨rfl, List.append_cancel_left hsame⟩
      | cons entry' entries' =>
          exact absurd hsame.symm (writeAt_table_ne depth entry' entries' rest' rest)
  | .table ((key, value) :: entries) =>
      obtain ⟨entries', rfl⟩ := htable hopening
      cases entries' with
      | nil => exact absurd hsame (writeAt_table_ne depth (key, value) entries rest rest')
      | cons entry' entries' =>
          obtain ⟨key', value'⟩ := entry'
          simp only [writeAt, Style.break, Style.colon, List.append_assoc, List.nil_append,
            List.cons_append, List.cons.injEq, true_and] at hsame
          obtain ⟨rfl, hvalue⟩ := writeString_cancel hsame
          obtain ⟨rfl, hentries⟩ := writeAt_cancel (depth + 1) hfirst.1 hsecond.1
            (stopsNumber_writeEntries .compact (depth + 1) depth entries rest)
            (stopsNumber_writeEntries .compact (depth + 1) depth entries' rest')
            (List.cons.inj hvalue).2
          obtain ⟨rfl, hafter⟩ := writeEntries_cancel (depth + 1) hfirst.2 hsecond.2 hentries
          exact ⟨rfl, hafter⟩

theorem writeItems_cancel (depth : Nat) {first second : List Document}
    (hfirst : ArePlain (·.isFinite = true) first) (hsecond : ArePlain (·.isFinite = true) second)
    {rest rest' : List Char}
    (hsame : writeItems .compact depth first ++ ']' :: rest =
      writeItems .compact depth second ++ ']' :: rest') : first = second ∧ rest = rest' := by
  match first, second with
  | [], [] => exact ⟨rfl, (List.cons.inj hsame).2⟩
  | [], item' :: items' => simp [writeItems] at hsame
  | item :: items, [] => simp [writeItems] at hsame
  | item :: items, item' :: items' =>
      simp only [writeItems, Style.break, List.append_assoc, List.nil_append, List.cons_append,
        List.cons.injEq, true_and] at hsame
      obtain ⟨rfl, hitems⟩ := writeAt_cancel depth hfirst.1 hsecond.1
        (stopsNumber_writeItems .compact depth depth items rest)
        (stopsNumber_writeItems .compact depth depth items' rest') hsame
      obtain ⟨rfl, hafter⟩ := writeItems_cancel depth hfirst.2 hsecond.2 hitems
      exact ⟨rfl, hafter⟩

theorem writeEntries_cancel (depth : Nat) {first second : List (List Char × Document)}
    (hfirst : ArePlainEntries (·.isFinite = true) first)
    (hsecond : ArePlainEntries (·.isFinite = true) second)
    {rest rest' : List Char}
    (hsame : writeEntries .compact depth first ++ '\x7d' :: rest =
      writeEntries .compact depth second ++ '\x7d' :: rest') : first = second ∧ rest = rest' := by
  match first, second with
  | [], [] => exact ⟨rfl, (List.cons.inj hsame).2⟩
  | [], (_, _) :: _ => simp [writeEntries] at hsame
  | (_, _) :: _, [] => simp [writeEntries] at hsame
  | (key, value) :: entries, (key', value') :: entries' =>
      simp only [writeEntries, Style.break, Style.colon, List.append_assoc, List.nil_append,
        List.cons_append, List.cons.injEq, true_and] at hsame
      obtain ⟨rfl, hvalue⟩ := writeString_cancel hsame
      obtain ⟨rfl, hentries⟩ := writeAt_cancel depth hfirst.1 hsecond.1
        (stopsNumber_writeEntries .compact depth depth entries rest)
        (stopsNumber_writeEntries .compact depth depth entries' rest') (List.cons.inj hvalue).2
      obtain ⟨rfl, hafter⟩ := writeEntries_cancel depth hfirst.2 hsecond.2 hentries
      exact ⟨rfl, hafter⟩

end

theorem write_injective {first second : Document} (hfirst : IsDefinite first)
    (hsecond : IsDefinite second) (hsame : write .compact first = write .compact second) :
    first = second := by
  have hend : StopsNumber [] := nofun
  refine (writeAt_cancel 0 hfirst hsecond hend hend ?_).1
  rw [List.append_nil, List.append_nil]
  exact hsame

end Gcode.Json
