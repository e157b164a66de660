import Gcode.Document.Json
import Gcode.Proofs.Document.Number
import Mathlib.Tactic.SplitIfs

/-!
# JSON as it is written

On one line a document is written without line feeds of its own, and in either style it is read back
as it was written (`read?_write`), if JSON keeps all its parts.  Whether a double is kept is a
question about that double: the reader does not always find the nearest one.
-/

namespace Gcode.Json

theorem layout_wholeFraction :
    ∀ digits, layout.wholeFraction = some digits → Numeral.AllDigits digits := by
  rintro digits ⟨⟩
  exact allDigits_replicate_zero 1

/-! ## On one line -/

theorem newline_not_mem_float (value : Float) : '\n' ∉ (layout.text value).toList := by
  rcases Layout.text_cases layout_wholeFraction value with hword | ⟨numeral, hwell, htext⟩
  · have hnull : layout.text value = "null" := by simpa [layout] using hword
    rw [hnull]
    decide
  · rw [htext]
    exact hwell.newline_not_mem

theorem newline_not_mem_integer (value : Int) : '\n' ∉ writeInteger value := by
  have hdigits := (allDigits_toDigits value.natAbs).newline_not_mem
  unfold writeInteger
  split <;> simp [hdigits]

theorem newline_not_mem_escape (c : Char) : '\n' ∉ escape c := by
  have hhex : ∀ code < 0x20, '\n' ∉ Nat.toDigits 16 code := by decide
  unfold escape
  split_ifs with _ _ _ _ hfeed _ _ hcontrol
  case pos | pos | pos | pos | pos | pos | pos => decide
  · simp [hhex _ hcontrol]
  · simpa using Ne.symm hfeed

theorem newline_not_mem_writeString (text : List Char) : '\n' ∉ writeString text := by
  simp [writeString, newline_not_mem_escape]

mutual

theorem newline_not_mem_writeAt (depth : Nat) (document : Document) :
    '\n' ∉ writeAt .compact depth document := by
  match document with
  | .null | .moment | .unreadable | .boolean true | .boolean false | .list [] | .table [] =>
      simp [writeAt]
  | .integer value => exact newline_not_mem_integer value
  | .float value => exact newline_not_mem_float value
  | .text value => exact newline_not_mem_writeString value
  | .list (item :: items) =>
      simp [writeAt, Style.break, newline_not_mem_writeAt (depth + 1) item,
        newline_not_mem_writeItems (depth + 1) items]
  | .table ((key, value) :: entries) =>
      simp [writeAt, Style.break, Style.colon, newline_not_mem_writeString key,
        newline_not_mem_writeAt (depth + 1) value,
        newline_not_mem_writeEntries (depth + 1) entries]

theorem newline_not_mem_writeItems (depth : Nat) (items : List Document) :
    '\n' ∉ writeItems .compact depth items := by
  match items with
  | [] => simp [writeItems]
  | item :: items =>
      simp [writeItems, Style.break, newline_not_mem_writeAt depth item,
        newline_not_mem_writeItems depth items]

theorem newline_not_mem_writeEntries (depth : Nat) (entries : List (List Char × Document)) :
    '\n' ∉ writeEntries .compact depth entries := by
  match entries with
  | [] => simp [writeEntries]
  | (key, value) :: entries =>
      simp [writeEntries, Style.break, Style.colon, newline_not_mem_writeString key,
        newline_not_mem_writeAt depth value, newline_not_mem_writeEntries depth entries]

end

/-! ## Strings -/

def unitOf (c : Char) : StringUnit :=
  if c.toNat < 0x20 ∧ c ∉ ['\x08', '\t', '\n', '\x0c', '\r'] then .unit c.toNat else .char c

theorem exists_hexDigits {code : Nat} (hcode : code < 0x20) :
    ∃ a b c d, List.replicate (4 - (Nat.toDigits 16 code).length) '0' ++ Nat.toDigits 16 code =
      [a, b, c, d] ∧ hexNumber? [a, b, c, d] = some code := by
  have hall : ∀ code < 0x20,
      let digits := Nat.toDigits 16 code
      (List.replicate (4 - digits.length) '0' ++ digits).length = 4 ∧
        hexNumber? (List.replicate (4 - digits.length) '0' ++ digits) = some code := by decide
  obtain ⟨hlength, hvalue⟩ := hall code hcode
  match hdigits : List.replicate (4 - (Nat.toDigits 16 code).length) '0' ++ Nat.toDigits 16 code,
    hlength with
  | [a, b, c, d], _ => exact ⟨a, b, c, d, rfl, hdigits ▸ hvalue⟩

theorem scanString_short {e c : Char} (he : shortEscape? e = some c) (rest : List Char) :
    scanString ('\\' :: e :: rest) =
      (scanString rest).map fun (units, rest) => (.char c :: units, rest) := by
  have hu : e ≠ 'u' := by
    rintro rfl
    contradiction
  rw [scanString, he]
  · cases scanString rest <;> rfl
  · intro _ _ _ _ _ h
    exact absurd h hu

theorem scanString_plain {c : Char} (hquote : c ≠ '"') (hslash : c ≠ '\\')
    (hcontrol : 0x20 ≤ c.toNat) (rest : List Char) :
    scanString (c :: rest) =
      (scanString rest).map fun (units, rest) => (.char c :: units, rest) := by
  rw [scanString, if_neg (by simp [hslash, hcontrol])]
  · cases scanString rest <;> rfl
  · exact hquote
  · exact fun _ _ _ _ _ h => absurd h hslash
  · exact fun _ _ h => absurd h hslash

theorem scanString_escape (c : Char) (rest : List Char) :
    scanString (escape c ++ rest) =
      (scanString rest).map fun (units, rest) => (unitOf c :: units, rest) := by
  unfold escape
  split_ifs with hquote hslash hb ht hn hf hr hcontrol
  case pos | pos | pos | pos | pos | pos | pos => subst c; exact scanString_short rfl rest
  · obtain ⟨a, b, x, y, hdigits, hvalue⟩ := exists_hexDigits hcontrol
    have hunit : unitOf c = .unit c.toNat := if_pos (by simp_all)
    rw [List.append_assoc ['\\', 'u'], hdigits, hunit]
    simp only [List.cons_append, List.nil_append, scanString, hvalue]
    cases scanString rest <;> rfl
  · have hunit : unitOf c = .char c := if_neg fun h => hcontrol h.1
    rw [hunit]
    exact scanString_plain hquote hslash (Nat.le_of_not_lt hcontrol) rest

theorem scanString_flatMap_escape (text rest : List Char) :
    scanString (text.flatMap escape ++ '"' :: rest) = some (text.map unitOf, rest) := by
  induction text with
  | nil => rfl
  | cons c text ih => simp [scanString_escape, ih]

theorem decodeUnits_unit {code : Nat} (hcode : code < 0x20) (units : List StringUnit) :
    decodeUnits (.unit code :: units) = (decodeUnits units).map (Char.ofNat code :: ·) := by
  have hhigh : isHighSurrogate code = false := by simp [isHighSurrogate]; omega
  have hlow : isLowSurrogate code = false := by simp [isLowSurrogate]; omega
  rw [decodeUnits.eq_def]
  split <;> simp_all

theorem decodeUnits_map_unitOf (text : List Char) : decodeUnits (text.map unitOf) = some text := by
  induction text with
  | nil => rfl
  | cons c text ih =>
      simp only [List.map_cons, unitOf]
      split
      · next hcontrol => simp [decodeUnits_unit hcontrol.1, ih]
      · simp [decodeUnits, ih]

/-! ## Numbers -/

def ReadsBack (value : Float) : Prop := read? (layout.text value).toList = some (.float value)

def StopsNumber (rest : List Char) : Prop := ∀ c, rest.head? = some c → isNumeralChar c = false

theorem skipBlank_of_head {c : Char} (hc : isBlank c = false) (text : List Char) :
    skipBlank (c :: text) = c :: text := by
  simp [skipBlank, hc]

theorem isBlank_of_isNumeralChar {c : Char} (hc : isNumeralChar c = true) : isBlank c = false := by
  cases hblank : isBlank c with
  | false => rfl
  | true =>
      simp only [isBlank, Bool.or_eq_true, beq_iff_eq] at hblank
      rcases hblank with ((rfl | rfl) | rfl) | rfl <;> contradiction

theorem scanValue_numeral (steps : Nat) {numeral : Numeral} (hwell : numeral.WellFormed)
    {rest : List Char} (hrest : StopsNumber rest) :
    scanValue (steps + 1) (numeral.text ++ rest) =
      if isNumber numeral then some (numberDocument numeral, rest) else none := by
  obtain ⟨c, text, hc, htext⟩ := hwell.exists_head
  have hscan := Numeral.scanNumeral_suffix hwell (numeral.stopsBefore_of_head hrest)
  rw [htext, List.cons_append] at hscan ⊢
  rw [scanValue, skipBlank_of_head (isBlank_of_isNumeralChar hc)]
  split
  case h_7 => simp only [hscan]
  all_goals
    next heq =>
      obtain ⟨rfl, -⟩ := List.cons.inj heq
      contradiction

def integerNumeral (value : Int) : Numeral :=
  ⟨Layout.signOf (value < 0), Nat.toDigits 10 value.natAbs, none, none⟩

theorem text_integerNumeral (value : Int) : (integerNumeral value).text = writeInteger value := by
  by_cases hvalue : value < 0 <;>
    simp [integerNumeral, Numeral.text, Numeral.fractionText, Numeral.exponentText, writeInteger,
      Layout.signOf, hvalue]

theorem integerNumeral_wellFormed (value : Int) : (integerNumeral value).WellFormed where
  sign := Layout.isSign_signOf _
  whole := allDigits_toDigits _
  fraction := by simp [integerNumeral]
  digits := by simp [Numeral.digits, integerNumeral, Nat.toDigits_ne_nil]
  exponent := by simp [integerNumeral]

theorem isNumber_integerNumeral (value : Int) : isNumber (integerNumeral value) = true := by
  have hsign : Layout.signOf (decide (value < 0)) ≠ some '+' := by
    unfold Layout.signOf
    split <;> decide
  have hzero : (Nat.toDigits 10 value.natAbs).length = 1 ∨
      (Nat.toDigits 10 value.natAbs).head? ≠ some '0' :=
    (toDigits_eq_zero_or_head? value.natAbs).imp_left fun hdigits => by rw [hdigits]; rfl
  simp [isNumber, integerNumeral, hsign, hzero, Nat.toDigits_ne_nil]

theorem numberDocument_integerNumeral {value : Int} (hlow : -0x8000000000000000 ≤ value)
    (hhigh : value < 0x10000000000000000) :
    numberDocument (integerNumeral value) = .integer value := by
  have hinteger : integerValue? (integerNumeral value) = some value := by
    simp only [integerValue?, integerNumeral, Numeral.negative, digitsValue_toDigits,
      Layout.signOf_beq_minus, Option.isSome_none, Bool.or_self, Bool.false_eq_true, if_false,
      decide_eq_true_eq, Bool.and_eq_true]
    split
    · rw [if_pos (by omega)]
      exact congrArg some (by omega)
    · rw [if_pos (by simp only [UInt64.size]; omega)]
      exact congrArg some (by omega)
  rw [numberDocument, hinteger]

theorem scanValue_float (steps : Nat) {value : Float} (hvalue : ReadsBack value)
    {rest : List Char} (hrest : StopsNumber rest) :
    scanValue (steps + 1) ((layout.text value).toList ++ rest) = some (.float value, rest) := by
  unfold ReadsBack at hvalue
  rcases Layout.text_cases layout_wholeFraction value with hword | ⟨numeral, hwell, htext⟩
  · have hnull : layout.text value = "null" := by simpa [layout] using hword
    have hread : read? "null".toList = some .null := rfl
    rw [hnull, hread] at hvalue
    exact absurd (Option.some.inj hvalue) Document.noConfusion
  · have hend : StopsNumber [] := nofun
    have hwhole := scanValue_numeral (2 * numeral.text.length + 1) hwell hend
    rw [List.append_nil] at hwhole
    rw [htext, read?, hwhole] at hvalue
    rw [htext, scanValue_numeral steps hwell hrest]
    split at hvalue <;> simp_all

/-! ## Documents -/

mutual

/-- Whether a document is read back: whole numbers have 64 bits, the doubles are read back, and
there is no part that JSON has no value for. -/
def IsKept : Document → Prop
  | .null | .boolean _ | .text _ => True
  | .integer value => -0x8000000000000000 ≤ value ∧ value < 0x10000000000000000
  | .float value => ReadsBack value
  | .list items => AreKept items
  | .table entries => AreKeptEntries entries
  | .moment | .unreadable => False

def AreKept : List Document → Prop
  | [] => True
  | item :: items => IsKept item ∧ AreKept items

def AreKeptEntries : List (List Char × Document) → Prop
  | [] => True
  | (_, value) :: entries => IsKept value ∧ AreKeptEntries entries

end

variable (style : Style) (depth : Nat)

/-! What stands between the parts of a document is skipped. -/

theorem skipBlank_break (text : List Char) :
    skipBlank (style.break depth ++ text) = skipBlank text := by
  cases style with
  | compact => rfl
  | indented =>
      have hblank : ∀ c ∈ Style.indented.break depth, isBlank c = true := by
        simp [Style.break, isBlank]
      rw [skipBlank, List.dropWhile_append_of_pos hblank, skipBlank]

theorem scanValue_break (steps : Nat) (text : List Char) :
    scanValue steps (style.break depth ++ text) = scanValue steps text := by
  cases steps with
  | zero => rfl
  | succ steps => simp only [scanValue, skipBlank_break]

theorem scanMembers_break (steps : Nat) (text : List Char) :
    scanMembers steps (style.break depth ++ text) = scanMembers steps text := by
  cases steps with
  | zero => rfl
  | succ steps => simp only [scanMembers, skipBlank_break]

theorem scanItems_break (steps : Nat) (text : List Char) :
    scanItems steps (style.break depth ++ text) = scanItems steps text := by
  cases steps with
  | zero => rfl
  | succ steps => simp only [scanItems, scanValue_break]

theorem exists_head_writeAt (document : Document) :
    ∃ c text, isBlank c = false ∧ c ≠ ']' ∧ writeAt style depth document = c :: text := by
  have hnumeral {c : Char} (hc : isNumeralChar c = true) : isBlank c = false ∧ c ≠ ']' := by
    refine ⟨isBlank_of_isNumeralChar hc, ?_⟩
    rintro rfl
    contradiction
  match document with
  | .null | .moment | .unreadable => exact ⟨'n', _, rfl, by decide, rfl⟩
  | .boolean true => exact ⟨'t', _, rfl, by decide, rfl⟩
  | .boolean false => exact ⟨'f', _, rfl, by decide, rfl⟩
  | .text _ => exact ⟨'"', _, rfl, by decide, rfl⟩
  | .list [] => exact ⟨'[', _, rfl, by decide, rfl⟩
  | .table [] => exact ⟨'\x7b', _, rfl, by decide, rfl⟩
  | .list (_ :: _) => exact ⟨'[', _, rfl, by decide, by simp [writeAt]; rfl⟩
  | .table ((_, _) :: _) => exact ⟨'\x7b', _, rfl, by decide, by simp [writeAt]; rfl⟩
  | .integer value =>
      obtain ⟨c, text, hc, htext⟩ := (integerNumeral_wellFormed value).exists_head
      exact ⟨c, text, (hnumeral hc).1, (hnumeral hc).2,
        (text_integerNumeral value).symm.trans htext⟩
  | .float value =>
      rcases Layout.text_cases layout_wholeFraction value with hword | ⟨numeral, hwell, htext⟩
      · have hnull : layout.text value = "null" := by simpa [layout] using hword
        exact ⟨'n', _, rfl, by decide, by rw [writeAt, hnull]; rfl⟩
      · obtain ⟨c, text, hc, hhead⟩ := hwell.exists_head
        exact ⟨c, text, (hnumeral hc).1, (hnumeral hc).2, htext.trans hhead⟩

theorem length_writeAt_pos (document : Document) : 0 < (writeAt style depth document).length := by
  obtain ⟨c, text, -, -, htext⟩ := exists_head_writeAt style depth document
  simp [htext]

/-! ## Reading what was written -/

theorem scanValue_writeString (steps : Nat) (text rest : List Char) :
    scanValue (steps + 1) (writeString text ++ rest) = some (.text text, rest) := by
  have hstart : scanValue (steps + 1) (writeString text ++ rest) =
      (scanString ((text.flatMap escape ++ ['"']) ++ rest)).map
        fun (units, rest) => (stringDocument units, rest) := rfl
  rw [hstart, List.append_assoc, List.singleton_append, scanString_flatMap_escape]
  simp [stringDocument, decodeUnits_map_unitOf]

theorem scanValue_list (steps : Nat) (item : Document) (tail : List Char) :
    scanValue (steps + 1)
        ('[' :: (style.break depth ++ (writeAt style depth item ++ tail))) =
      (scanItems steps (writeAt style depth item ++ tail)).map
        fun (items, rest) => (.list items, rest) := by
  obtain ⟨c, text, hblank, hclose, htext⟩ := exists_head_writeAt style depth item
  rw [scanValue, skipBlank_of_head rfl]
  simp only [scanItems_break, skipBlank_break, htext, List.cons_append, skipBlank_of_head hblank]
  split
  · next heq => exact absurd (List.cons.inj heq).1 hclose
  · rfl

theorem scanValue_table (steps : Nat) (key tail : List Char) :
    scanValue (steps + 1) ('\x7b' :: (style.break depth ++ (writeString key ++ tail))) =
      (scanMembers steps (writeString key ++ tail)).map
        fun (entries, rest) => (objectDocument entries, rest) := by
  rw [scanValue, skipBlank_of_head rfl]
  simp only [scanMembers_break, skipBlank_break]
  rfl

theorem exists_skipBlank_colon (steps : Nat) (text : List Char) :
    ∃ blanks, skipBlank (style.colon ++ text) = ':' :: blanks ∧
      scanValue steps blanks = scanValue steps text := by
  cases style with
  | compact => exact ⟨text, rfl, rfl⟩
  | indented =>
      refine ⟨' ' :: text, rfl, ?_⟩
      cases steps <;> rfl

section

variable {style} {steps : Nat} {text tail rest : List Char} {value : Document}
  (hvalue : scanValue steps text = some (value, tail)) (key : List Char)

include hvalue

theorem scanMembers_last (hclose : skipBlank tail = '\x7d' :: rest) :
    scanMembers (steps + 1) (writeString key ++ (style.colon ++ text)) =
      some ([(key.map unitOf, value)], rest) := by
  obtain ⟨blanks, hcolon, hblanks⟩ := exists_skipBlank_colon style steps text
  simp [writeString, scanMembers, skipBlank_of_head (show isBlank '"' = false from rfl),
    scanString_flatMap_escape, hcolon, hblanks, hvalue, hclose]

theorem scanMembers_next {others : List Char} {entries : List (List StringUnit × Document)}
    (hcomma : skipBlank tail = ',' :: others)
    (hothers : scanMembers steps others = some (entries, rest)) :
    scanMembers (steps + 1) (writeString key ++ (style.colon ++ text)) =
      some ((key.map unitOf, value) :: entries, rest) := by
  obtain ⟨blanks, hcolon, hblanks⟩ := exists_skipBlank_colon style steps text
  simp [writeString, scanMembers, skipBlank_of_head (show isBlank '"' = false from rfl),
    scanString_flatMap_escape, hcolon, hblanks, hvalue, hcomma, hothers]

end

theorem stopsNumber_break {c : Char} (hc : isNumeralChar c = false) (rest : List Char) :
    StopsNumber (style.break depth ++ c :: rest) := by
  cases style with
  | compact => simpa [StopsNumber, Style.break] using hc
  | indented => simpa [StopsNumber, Style.break] using by decide

theorem stopsNumber_writeItems (outer : Nat) (items : List Document) (rest : List Char) :
    StopsNumber (writeItems style depth items ++ (style.break outer ++ ']' :: rest)) := by
  cases items with
  | nil => exact stopsNumber_break style outer rfl rest
  | cons item items => simpa [StopsNumber, writeItems] using by decide

theorem stopsNumber_writeEntries (outer : Nat) (entries : List (List Char × Document))
    (rest : List Char) :
    StopsNumber (writeEntries style depth entries ++ (style.break outer ++ '\x7d' :: rest)) := by
  cases entries with
  | nil => exact stopsNumber_break style outer rfl rest
  | cons entry entries => simpa [StopsNumber, writeEntries] using by decide

theorem mapM_decodeUnits_map (entries : List (List Char × Document)) :
    (entries.map fun (key, value) => (key.map unitOf, value)).mapM
      (fun (key, value) => (decodeUnits key).map (·, value)) = some entries := by
  induction entries with
  | nil => rfl
  | cons entry entries ih => simp [decodeUnits_map_unitOf, ih]

theorem objectDocument_map (entries : List (List Char × Document)) :
    objectDocument (entries.map fun (key, value) => (key.map unitOf, value)) = .table entries := by
  rw [objectDocument, mapM_decodeUnits_map]

mutual

theorem scanValue_writeAt (depth : Nat) {document : Document} (hkept : IsKept document)
    (steps : Nat) (hsteps : 2 * (writeAt style depth document).length ≤ steps) {rest : List Char}
    (hrest : StopsNumber rest) :
    scanValue steps (writeAt style depth document ++ rest) = some (document, rest) := by
  obtain ⟨steps, rfl⟩ : ∃ n, steps = n + 1 := by
    have := length_writeAt_pos style depth document
    exact ⟨steps - 1, by omega⟩
  -- a list or a table takes two steps, one to open it and one to go on: its brackets pay for them
  match document with
  | .null | .boolean true | .boolean false | .list [] | .table [] => rfl
  | .integer value =>
      rw [writeAt, ← text_integerNumeral, scanValue_numeral steps (integerNumeral_wellFormed value)
        hrest, if_pos (isNumber_integerNumeral value),
        numberDocument_integerNumeral hkept.1 hkept.2]
  | .float value => exact scanValue_float steps hkept hrest
  | .text value => exact scanValue_writeString steps value rest
  | .list (item :: items) =>
      simp only [writeAt, List.length_append, List.length_cons] at hsteps
      obtain ⟨steps, rfl⟩ : ∃ n, steps = n + 1 := ⟨steps - 1, by omega⟩
      simp only [writeAt, List.append_assoc, List.cons_append, List.nil_append]
      have hitem := scanValue_writeAt (depth + 1) hkept.1 steps (by omega)
        (stopsNumber_writeItems style (depth + 1) depth items rest)
      rw [scanValue_list, scanItems_writeItems (depth + 1) depth hkept.2 hitem (by omega)]
      rfl
  | .table ((key, value) :: entries) =>
      simp only [writeAt, List.length_append, List.length_cons] at hsteps
      obtain ⟨steps, rfl⟩ : ∃ n, steps = n + 1 := ⟨steps - 1, by omega⟩
      simp only [writeAt, List.append_assoc, List.cons_append, List.nil_append]
      have hvalue := scanValue_writeAt (depth + 1) hkept.1 steps (by omega)
        (stopsNumber_writeEntries style (depth + 1) depth entries rest)
      rw [scanValue_table, scanMembers_writeEntries (depth + 1) depth hkept.2 key hvalue (by omega),
        Option.map_some, ← objectDocument_map]

theorem scanItems_writeItems (depth outer : Nat) {items : List Document} (hkept : AreKept items)
    {item : Document} {steps : Nat} {text rest : List Char}
    (hitem : scanValue steps text =
      some (item, writeItems style depth items ++ (style.break outer ++ ']' :: rest)))
    (hsteps : 2 * (writeItems style depth items).length ≤ steps) :
    scanItems (steps + 1) text = some (item :: items, rest) := by
  rw [scanItems, hitem]
  match items with
  | [] =>
      simp only [writeItems, List.nil_append, skipBlank_break]
      rfl
  | next :: items =>
      simp only [writeItems, List.length_append, List.length_cons] at hsteps
      obtain ⟨steps, rfl⟩ : ∃ n, steps = n + 1 := ⟨steps - 1, by omega⟩
      have hnext := scanValue_writeAt depth hkept.1 steps (by omega)
        (stopsNumber_writeItems style depth outer items rest)
      have hitems := scanItems_writeItems depth outer hkept.2 hnext (by omega)
      simp only [writeItems, List.append_assoc, List.cons_append, List.nil_append,
        skipBlank_of_head (show isBlank ',' = false from rfl), scanItems_break, hitems]
      rfl

theorem scanMembers_writeEntries (depth outer : Nat) {entries : List (List Char × Document)}
    (hkept : AreKeptEntries entries) (key : List Char) {value : Document} {steps : Nat}
    {text rest : List Char}
    (hvalue : scanValue steps text =
      some (value, writeEntries style depth entries ++ (style.break outer ++ '\x7d' :: rest)))
    (hsteps : 2 * (writeEntries style depth entries).length ≤ steps) :
    scanMembers (steps + 1) (writeString key ++ (style.colon ++ text)) =
      some (((key, value) :: entries).map (fun (key, value) => (key.map unitOf, value)), rest) := by
  match entries with
  | [] =>
      refine scanMembers_last hvalue key ?_
      rw [writeEntries, List.nil_append, skipBlank_break]
      rfl
  | (next, other) :: entries =>
      simp only [writeEntries, List.length_append, List.length_cons] at hsteps
      obtain ⟨steps, rfl⟩ : ∃ n, steps = n + 1 := ⟨steps - 1, by omega⟩
      have hother := scanValue_writeAt depth hkept.1 steps (by omega)
        (stopsNumber_writeEntries style depth outer entries rest)
      have hentries := scanMembers_writeEntries depth outer hkept.2 next hother (by omega)
      refine scanMembers_next hvalue key (by simp [writeEntries]; rfl) ?_
      simpa [scanMembers_break] using hentries

end

theorem read?_write {document : Document} (hkept : IsKept document) :
    read? (write style document) = some document := by
  have hend : StopsNumber [] := nofun
  have hscan := scanValue_writeAt style 0 hkept (2 * (write style document).length + 2)
    (Nat.le_add_right _ 2) hend
  rw [List.append_nil, ← write] at hscan
  rw [read?, hscan]
  rfl

mutual

theorem IsKept.isReadable {document : Document} (h : IsKept document) :
    document.isReadable = true := by
  match document with
  | .null | .boolean _ | .integer _ | .float _ | .text _ => rfl
  | .list items => exact AreKept.areReadable h
  | .table entries => exact AreKeptEntries.areReadable h

theorem AreKept.areReadable {items : List Document} (h : AreKept items) :
    Document.areReadable items = true := by
  match items with
  | [] => rfl
  | item :: items =>
      rw [Document.areReadable, h.1.isReadable, h.2.areReadable]
      rfl

theorem AreKeptEntries.areReadable {entries : List (List Char × Document)}
    (h : AreKeptEntries entries) : Document.areReadableEntries entries = true := by
  match entries with
  | [] => rfl
  | (key, value) :: entries =>
      rw [Document.areReadableEntries, h.1.isReadable, h.2.areReadable]
      rfl

end

end Gcode.Json
