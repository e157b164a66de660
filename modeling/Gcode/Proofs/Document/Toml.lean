import Gcode.Proofs.Document.TomlNumber
import Gcode.Proofs.Document.TomlString

/-!
# TOML as it is written

A table of numbers, texts and lists of numbers takes a line for each entry, or lines for each item
of a list; tables of that kind may follow, each under a header.  Such a document is read back line
by line (`read?_write`): every line leads from what was read before it to what is read behind it
(`ScansTo`).
-/

namespace Gcode.Toml

inductive IsNumber : Document → Prop where
  | integer {value : Int} (hlow : -0x8000000000000000 ≤ value)
      (hhigh : value < 0x8000000000000000) : IsNumber (.integer value)
  | float {value : Float} (hvalue : ReadsBack value) : IsNumber (.float value)

inductive IsPlain : Document → Prop where
  | number {document : Document} (hnumber : IsNumber document) : IsPlain document
  | text (value : List Char) : IsPlain (.text value)
  | list {items : List Document} (hitems : ∀ item ∈ items, IsNumber item) : IsPlain (.list items)

def IsBareKey (key : List Char) : Prop := key ≠ [] ∧ key.all isBareKeyChar = true

structure AreEntries {α : Type} (IsValue : α → Prop) (entries : List (List Char × α)) : Prop where
  keys : ∀ entry ∈ entries, IsBareKey entry.1
  values : ∀ entry ∈ entries, IsValue entry.2
  distinct : (entries.map Prod.fst).Nodup

abbrev ArePlain : List (List Char × Document) → Prop := AreEntries IsPlain

abbrev AreSections : List (List Char × List (List Char × Document)) → Prop := AreEntries ArePlain

theorem AreEntries.of_cons {α : Type} {IsValue : α → Prop} {entry : List Char × α}
    {entries : List (List Char × α)} (h : AreEntries IsValue (entry :: entries)) :
    IsBareKey entry.1 ∧ IsValue entry.2 ∧ entry.1 ∉ entries.map Prod.fst ∧
      AreEntries IsValue entries := by
  obtain ⟨hkey, hkeys⟩ := List.forall_mem_cons.1 h.keys
  obtain ⟨hvalue, hvalues⟩ := List.forall_mem_cons.1 h.values
  obtain ⟨hnew, hdistinct⟩ := List.nodup_cons.1 h.distinct
  exact ⟨hkey, hvalue, hnew, hkeys, hvalues, hdistinct⟩

/-! ## Values -/

theorem writeValue_integer (depth : Nat) (value : Int) :
    writeValue depth (.integer value) =
      (Layout.signOf (value < 0)).toList ++ Nat.toDigits 10 value.natAbs := by
  by_cases hvalue : value < 0 <;> simp [writeValue, Layout.signOf, hvalue]

theorem scanNumber_writeValue (depth : Nat) {document : Document} (h : IsNumber document)
    {rest : List Char} (hrest : StopsNumber rest) :
    scanNumber (writeValue depth document ++ rest) = some (document, rest) := by
  cases h with
  | integer hlow hhigh =>
      rw [writeValue_integer, List.append_assoc]
      exact scanNumber_integer hlow hhigh hrest
  | float hvalue => exact scanNumber_float hvalue hrest

/-! ## What stands between values -/

def isInk (c : Char) : Bool := !(isSpace c || ['#', '\n', '\r'].contains c)

theorem skipSpace_of_ink {c : Char} (hc : isInk c = true) (text : List Char) :
    skipSpace (c :: text) = c :: text := by
  have hspace : isSpace c = false := by simp_all [isInk]
  simp [skipSpace, hspace]

theorem skipComment_of_ink {c : Char} (hc : isInk c = true) (text : List Char) :
    skipComment (c :: text) = some (c :: text) := by
  unfold skipComment
  split
  · next heq => obtain ⟨rfl, -⟩ := List.cons.inj heq; contradiction
  · rfl

theorem scanNewline?_of_ink {c : Char} (hc : isInk c = true) (text : List Char) :
    scanNewline? (c :: text) = none :=
  scanNewline?_eq_none (not_mem_of_all_not hc (by decide)) text

theorem skipBetween_of_ink (steps : Nat) {c : Char} (hc : isInk c = true) (text : List Char) :
    skipBetween (steps + 1) (c :: text) = some (c :: text) := by
  simp [skipBetween, skipSpace_of_ink hc, skipComment_of_ink hc, scanNewline?_of_ink hc]

theorem skipBetween_break (steps blanks : Nat) {c : Char} (hc : isInk c = true)
    (text : List Char) :
    skipBetween (steps + 2) ('\n' :: (List.replicate blanks ' ' ++ c :: text)) =
      some (c :: text) := by
  have hblanks : skipSpace (List.replicate blanks ' ' ++ c :: text) = c :: text := by
    have hspace : ∀ d ∈ List.replicate blanks ' ', isSpace d = true := by simp [isSpace]
    rw [skipSpace, List.dropWhile_append_of_pos hspace]
    exact skipSpace_of_ink hc text
  have hnext : skipBetween (steps + 1) (List.replicate blanks ' ' ++ c :: text) =
      some (c :: text) := by
    simp [skipBetween, hblanks, skipComment_of_ink hc, scanNewline?_of_ink hc]
  exact hnext

def startsNumber (c : Char) : Bool := c.isDigit || ['-', 'n', 'i'].contains c

theorem startsNumber_of_signOf {negative : Bool} {whole : List Char}
    (hdigits : Numeral.AllDigits whole) (hne : whole ≠ []) (rest : List Char) :
    ∃ c text, startsNumber c = true ∧
      (Layout.signOf negative).toList ++ (whole ++ rest) = c :: text := by
  obtain ⟨digit, digits, rfl⟩ := List.exists_cons_of_ne_nil hne
  cases negative with
  | true => exact ⟨'-', _, rfl, rfl⟩
  | false => exact ⟨digit, _, by simp [startsNumber, hdigits digit], rfl⟩

theorem exists_head_writeValue (depth : Nat) {document : Document} (h : IsNumber document)
    (rest : List Char) :
    ∃ c text, startsNumber c = true ∧ writeValue depth document ++ rest = c :: text := by
  cases h with
  | @integer value hlow hhigh =>
      rw [writeValue_integer, List.append_assoc]
      exact startsNumber_of_signOf (allDigits_toDigits _) Nat.toDigits_ne_nil rest
  | @float value hvalue =>
      rw [writeValue]
      rcases layout_text_cases value with hword | ⟨numeral, negative, whole, fraction, h, htext⟩
      · simp only [List.mem_cons, List.not_mem_nil, or_false] at hword
        rcases hword with hword | hword | hword <;> rw [hword]
        · exact ⟨'n', _, rfl, rfl⟩
        · exact ⟨'i', _, rfl, rfl⟩
        · exact ⟨'-', _, rfl, rfl⟩
      · rw [htext, h.text_append]
        exact startsNumber_of_signOf h.allDigits_whole h.whole_ne_nil _

theorem isInk_of_startsNumber {c : Char} (hc : startsNumber c = true) :
    isInk c = true ∧ c ∉ [']', '"', '\'', 't', 'f', '[', '\x7b'] := by
  have hother : c ∉ [' ', '\t', '#', '\n', '\r', ']', '"', '\'', 't', 'f', '[', '\x7b'] :=
    not_mem_of_all_not hc (by decide)
  simp only [List.mem_cons, not_or] at hother
  simp [isInk, isSpace, hother]

theorem scanValue_number (steps nesting depth : Nat) {document : Document} (h : IsNumber document)
    {rest : List Char} (hrest : StopsNumber rest) :
    scanValue (steps + 1) nesting (writeValue depth document ++ rest) = some (document, rest) := by
  obtain ⟨c, text, hc, htext⟩ := exists_head_writeValue depth h rest
  have hscan := scanNumber_writeValue depth h hrest
  obtain ⟨-, hother⟩ := isInk_of_startsNumber hc
  rw [htext] at hscan ⊢
  unfold scanValue
  split
  case h_7 => exact hscan
  all_goals
    next heq => exact absurd heq (cons_ne_cons_of_not_mem hother (by simp) _ _)

theorem StopsNumber.head?_ne {rest : List Char} (hrest : StopsNumber rest) :
    rest.head? ≠ some '"' ∧ rest.head? ≠ some '\'' :=
  ⟨fun h => absurd (hrest _ h) (by decide), fun h => absurd (hrest _ h) (by decide)⟩

theorem scanValue_text (steps nesting : Nat) (text : List Char) {rest : List Char}
    (hrest : StopsNumber rest) :
    scanValue (steps + 1) nesting (writeString text ++ rest) = some (.text text, rest) := by
  obtain ⟨hdouble, hsingle⟩ := hrest.head?_ne
  have hscan := scanString_writeString text hdouble hsingle
  obtain ⟨c, body, hc, hbody⟩ := exists_head_writeString text
  have hquoted : scanValue (steps + 1) nesting (writeString text ++ rest) =
      (scanString (writeString text ++ rest)).map fun read => (.text read.1, read.2) := by
    rw [hbody, List.cons_append]
    rcases hc with rfl | rfl <;> rfl
  rw [hquoted, hscan]
  rfl

/-! ## Lists -/

theorem scanItems_end {text rest : List Char} (steps nesting : Nat)
    (hskip : skipBetween (text.length + 1) text = some (']' :: rest)) :
    scanItems (steps + 1) nesting text = some ([], rest) := by
  rw [scanItems, hskip]
  rfl

theorem scanItems_item {text inner tail : List Char} {c : Char} {steps nesting : Nat}
    {item : Document} (hskip : skipBetween (text.length + 1) text = some (c :: inner))
    (hc : c ≠ ']') (hitem : scanValue steps nesting (c :: inner) = some (item, ',' :: tail)) :
    scanItems (steps + 1) nesting text =
      (scanItems steps nesting tail).map fun (items, rest) => (item :: items, rest) := by
  have hcomma := skipBetween_of_ink (',' :: tail).length (show isInk ',' = true from rfl) tail
  rw [scanItems, hskip]
  split
  · contradiction
  · next heq => exact absurd (List.cons.inj (Option.some.inj heq)).1 hc
  · next heq =>
      obtain rfl := Option.some.inj heq
      rw [hitem]
      simp only [hcomma]

theorem scanItems_writeItems (nesting depth blanks : Nat) {items : List Document}
    (hitems : ∀ item ∈ items, IsNumber item) (steps : Nat) (hsteps : items.length < steps)
    (rest : List Char) :
    scanItems steps nesting
        (writeItems depth items ++ ('\n' :: (List.replicate blanks ' ' ++ ']' :: rest))) =
      some (items, rest) := by
  induction items generalizing steps with
  | nil =>
      obtain ⟨steps, rfl⟩ : ∃ n, steps = n + 1 := ⟨steps - 1, by omega⟩
      exact scanItems_end steps nesting (skipBetween_break _ blanks rfl rest)
  | cons item items ih =>
      obtain ⟨hnumber, hothers⟩ := List.forall_mem_cons.1 hitems
      rw [List.length_cons] at hsteps
      obtain ⟨steps, rfl⟩ : ∃ n, steps = n + 2 := ⟨steps - 2, by omega⟩
      let tail := writeItems depth items ++ ('\n' :: (List.replicate blanks ' ' ++ ']' :: rest))
      have htail : StopsNumber (',' :: tail) := by simp [StopsNumber, StartsIn]
      have hitem := scanValue_number steps nesting depth hnumber htail
      obtain ⟨c, text, hc, htext⟩ := exists_head_writeValue depth hnumber (',' :: tail)
      obtain ⟨hink, hother⟩ := isInk_of_startsNumber hc
      rw [htext] at hitem
      have hlist : writeItems depth (item :: items) ++
          ('\n' :: (List.replicate blanks ' ' ++ ']' :: rest)) =
          '\n' :: (List.replicate (4 * depth) ' ' ++ c :: text) := by
        rw [← htext]
        simp [writeItems, tail]
      rw [hlist, scanItems_item (skipBetween_break _ (4 * depth) hink text)
        (fun h => hother (by simp [h])) hitem, ih hothers (steps + 1) (by omega)]
      rfl

theorem length_le_writeItems (depth : Nat) (items : List Document) :
    items.length ≤ (writeItems depth items).length := by
  induction items with
  | nil => exact Nat.zero_le _
  | cons item items ih =>
      simp only [writeItems, List.length_append, List.length_cons, List.length_nil]
      omega

theorem scanValue_writeValue {document : Document} (h : IsPlain document) {rest : List Char}
    (hrest : StopsNumber rest) {steps nesting : Nat}
    (hsteps : (writeValue 0 document).length < steps) :
    scanValue (steps + 1) (nesting + 1) (writeValue 0 document ++ rest) =
      some (document, rest) := by
  cases h with
  | number hnumber => exact scanValue_number steps (nesting + 1) 0 hnumber hrest
  | text value => exact scanValue_text steps (nesting + 1) value hrest
  | @list items hitems =>
      have hopen (text : List Char) : scanValue (steps + 1) (nesting + 1) ('[' :: text) =
          (scanItems steps nesting text).map fun (items, rest) => (.list items, rest) := rfl
      match items with
      | [] =>
          obtain ⟨steps, rfl⟩ : ∃ n, steps = n + 1 := ⟨steps - 1, by omega⟩
          have hend := scanItems_end steps nesting
            (skipBetween_of_ink (']' :: rest).length (show isInk ']' = true from rfl) rest)
          simp only [writeValue, List.cons_append, List.nil_append, hopen, hend]
          rfl
      | item :: items =>
          have hlength := length_le_writeItems (0 + 1) (item :: items)
          simp only [writeValue, List.length_append, List.length_cons] at hsteps hlength
          have hread := scanItems_writeItems nesting (0 + 1) (4 * 0) hitems steps
            (by rw [List.length_cons]; omega) rest
          simp only [writeValue, List.append_assoc, List.cons_append, List.nil_append, hopen, hread]
          rfl

/-! ## Lines -/

theorem isInk_of_isBareKeyChar {c : Char} (hc : isBareKeyChar c = true) :
    isInk c = true ∧ c ∉ ['"', '\'', '[', '\ufeff'] := by
  have hother : c ∉ [' ', '\t', '#', '\n', '\r', '"', '\'', '[', '\ufeff'] :=
    not_mem_of_all_not hc (by decide)
  simp only [List.mem_cons, not_or] at hother
  simp [isInk, isSpace, hother]

theorem IsBareKey.exists_head {key : List Char} (hkey : IsBareKey key) (text : List Char) :
    ∃ c rest, isInk c = true ∧ c ∉ ['"', '\'', '[', '\ufeff'] ∧ key ++ text = c :: rest := by
  obtain ⟨c, key, rfl⟩ := List.exists_cons_of_ne_nil hkey.1
  obtain ⟨hink, hother⟩ :=
    isInk_of_isBareKeyChar (List.all_eq_true.1 hkey.2 c List.mem_cons_self)
  exact ⟨c, key ++ text, hink, hother, rfl⟩

theorem scanSimpleKey_bare {key : List Char} (hkey : IsBareKey key) {stop : Char}
    (hstop : isBareKeyChar stop = false) (text : List Char) :
    scanSimpleKey (key ++ (stop :: text)) = some (key, stop :: text) := by
  have htake : (key ++ (stop :: text)).takeWhile isBareKeyChar = key := by
    rw [List.takeWhile_append_of_pos (List.all_eq_true.1 hkey.2)]
    simp [hstop]
  obtain ⟨c, rest, -, hother, hhead⟩ := hkey.exists_head (stop :: text)
  unfold scanSimpleKey
  split
  · next heq =>
      exact absurd (hhead.symm.trans heq) (cons_ne_cons_of_not_mem hother (by simp) _ _)
  · next heq =>
      exact absurd (hhead.symm.trans heq) (cons_ne_cons_of_not_mem hother (by simp) _ _)
  · simp only [htake, if_neg hkey.1, List.drop_left]

theorem scanKey_bare {key : List Char} (hkey : IsBareKey key) {stop next : Char}
    {text rest : List Char} (hstop : isBareKeyChar stop = false)
    (hskip : skipSpace (stop :: text) = next :: rest) (hpoint : next ≠ '.') :
    scanKey (key ++ (stop :: text)) = some (([], key), next :: rest) := by
  obtain ⟨c, tail, hink, -, hhead⟩ := hkey.exists_head (stop :: text)
  have hstart : skipSpace (key ++ (stop :: text)) = key ++ (stop :: text) := by
    rw [hhead, skipSpace_of_ink hink]
  rw [scanKey, maxDepth, scanKeyOf, hstart, scanSimpleKey_bare hkey hstop]
  simp only [Option.bind_eq_bind, Option.bind_some, hskip]
  split
  · next heq => exact absurd (List.cons.inj heq).1 hpoint
  · rfl

theorem Items.of_lookup_cons {items : Items} {key next : List Char} {item : Item}
    (hfresh : List.lookup key ((next, item) :: items) = none) :
    key ≠ next ∧ items.lookup key = none := by
  by_cases hnext : key = next
  · simp [hnext] at hfresh
  · exact ⟨hnext, by rwa [List.lookup_cons, beq_false_of_ne hnext] at hfresh⟩

theorem Items.put_of_fresh {items : Items} {key : List Char} (hfresh : items.lookup key = none)
    (item : Item) : items.put key item = items ++ [(key, item)] := by
  induction items with
  | nil => rfl
  | cons entry items ih =>
      obtain ⟨next, other⟩ := entry
      obtain ⟨hother, hrest⟩ := Items.of_lookup_cons hfresh
      simp [Items.put, Ne.symm hother, ih hrest]

theorem Items.fresh_append {α : Type} {items : Items} {entries : List (List Char × α)}
    (hfresh : ∀ entry ∈ entries, items.lookup entry.1 = none) {key : List Char}
    (hnew : key ∉ entries.map Prod.fst) (item : Item) :
    ∀ entry ∈ entries, (items ++ [(key, item)]).lookup entry.1 = none := by
  intro entry hentry
  have hne : entry.1 ≠ key := fun h => hnew (List.mem_map.2 ⟨entry, hentry, h⟩)
  rw [List.lookup_append, hfresh entry hentry]
  simp [List.lookup_cons, beq_false_of_ne hne]

theorem writeKey_bare {key : List Char} (hkey : IsBareKey key) : writeKey key = key := by
  rw [writeKey, if_pos (by simp only [hkey.2, Bool.and_true, bne_iff_ne]; exact hkey.1)]

theorem writeEntry_plain {key : List Char} {value : Document} (hkey : IsBareKey key)
    (hvalue : IsPlain value) (rest : List Char) :
    writeEntry (key, value) ++ rest =
      key ++ (' ' :: '=' :: ' ' :: (writeValue 0 value ++ ('\n' :: rest))) := by
  cases hvalue with
  | number hnumber => cases hnumber <;> simp [writeEntry, writeKey_bare hkey]
  | text value => simp [writeEntry, writeKey_bare hkey]
  | list hitems => simp [writeEntry, writeKey_bare hkey]

theorem exists_head_writeEntry {key : List Char} {value : Document} (hkey : IsBareKey key)
    (hvalue : IsPlain value) :
    ∃ c text, isInk c = true ∧ c ∉ ['"', '\'', '[', '\ufeff'] ∧
      writeEntry (key, value) = c :: text := by
  obtain ⟨c, text, hink, hother, hhead⟩ :=
    hkey.exists_head (' ' :: '=' :: ' ' :: (writeValue 0 value ++ ['\n']))
  refine ⟨c, text, hink, hother, ?_⟩
  rw [← hhead, ← writeEntry_plain hkey hvalue, List.append_nil]

theorem skipSpace_writeValue {value : Document} (hvalue : IsPlain value) (rest : List Char) :
    skipSpace (' ' :: (writeValue 0 value ++ rest)) = writeValue 0 value ++ rest := by
  have hspace (text : List Char) : skipSpace (' ' :: text) = skipSpace text := rfl
  obtain ⟨c, text, hink, htext⟩ :
      ∃ c text, isInk c = true ∧ writeValue 0 value ++ rest = c :: text := by
    cases hvalue with
    | number hnumber =>
        obtain ⟨c, text, hc, htext⟩ := exists_head_writeValue 0 hnumber rest
        exact ⟨c, text, (isInk_of_startsNumber hc).1, htext⟩
    | text value =>
        obtain ⟨c, body, hc, hbody⟩ := exists_head_writeString value
        exact ⟨c, body ++ rest, by rcases hc with rfl | rfl <;> rfl, congrArg (· ++ rest) hbody⟩
    | @list items hitems =>
        cases items with
        | nil => exact ⟨'[', _, rfl, rfl⟩
        | cons item items => exact ⟨'[', _, rfl, by simp [writeValue]; rfl⟩
  rw [hspace, htext, skipSpace_of_ink hink]

theorem scanLine_entry {items next : Items} {current : List (List Char)} {key : List Char}
    {value : Document} (hkey : IsBareKey key) (hvalue : IsPlain value)
    (hadded : Items.changeAt (Items.insert true [] key value) current items = some next)
    (rest : List Char) :
    scanLine ⟨items, current⟩ (writeEntry (key, value) ++ rest) =
      some (⟨next, current⟩, rest) := by
  let line := writeValue 0 value ++ ('\n' :: rest)
  have hscan : scanValue (2 * (' ' :: line).length + 2) maxDepth (skipSpace (' ' :: line)) =
      some (value, '\n' :: rest) := by
    simp only [line]
    rw [skipSpace_writeValue hvalue]
    exact scanValue_writeValue hvalue (by simp [StopsNumber, StartsIn])
      (by simp only [List.length_cons, List.length_append]; omega)
  have hend : scanLineEnd ('\n' :: rest) = some rest := rfl
  obtain ⟨c, text, -, hother, hhead⟩ := hkey.exists_head (' ' :: '=' :: ' ' :: line)
  rw [writeEntry_plain hkey hvalue]
  change scanLine _ (key ++ (' ' :: '=' :: ' ' :: line)) = _
  unfold scanLine
  split
  · next heq =>
      exact absurd (hhead.symm.trans heq) (cons_ne_cons_of_not_mem hother (by simp) _ _)
  · next heq =>
      exact absurd (hhead.symm.trans heq) (cons_ne_cons_of_not_mem hother (by simp) _ _)
  · rw [scanKey_bare hkey rfl rfl (by decide)]
    simp only [hscan, Option.bind_eq_bind, Option.bind_some, hadded, hend]
    rfl

theorem scanLine_header {items next : Items} (current : List (List Char)) {key : List Char}
    (hkey : IsBareKey key) (hopened : items.openTable [] key = some next) (rest : List Char) :
    scanLine ⟨items, current⟩ (writeHeader [key] ++ rest) = some (⟨next, [key]⟩, rest) := by
  have hheader : writeHeader [key] ++ rest = '[' :: (key ++ (']' :: '\n' :: rest)) := by
    simp [writeHeader, writeKey_bare hkey]
  have hend : scanLineEnd ('\n' :: rest) = some rest := rfl
  obtain ⟨c, text, -, hother, hhead⟩ := hkey.exists_head (']' :: '\n' :: rest)
  rw [hheader]
  unfold scanLine
  split
  · next heq =>
      exact absurd (hhead.symm.trans (List.cons.inj heq).2)
        (cons_ne_cons_of_not_mem hother (by simp) _ _)
  · next heq =>
      rw [← (List.cons.inj heq).2, scanKey_bare hkey rfl rfl (by decide)]
      simp only [Option.bind_eq_bind, Option.bind_some, hopened, hend]
      rfl
  · next hne => exact absurd rfl (hne _)

/-! ## Lines in a row -/

/-- With enough steps for a text, reading it comes to read the rest of it with enough steps. -/
def ScansTo (progress : Progress) (text : List Char) (next : Progress) (rest : List Char) : Prop :=
  ∀ steps, text.length < steps →
    ∃ left, rest.length < left ∧ scanLines steps progress text = scanLines left next rest

namespace ScansTo

variable {first second third : Progress} {text rest last : List Char}

theorem refl (progress : Progress) (text : List Char) : ScansTo progress text progress text :=
  fun steps hsteps => ⟨steps, hsteps, rfl⟩

theorem trans (hfirst : ScansTo first text second rest) (hsecond : ScansTo second rest third last) :
    ScansTo first text third last := by
  intro steps hsteps
  obtain ⟨between, hbetween, heq⟩ := hfirst steps hsteps
  obtain ⟨left, hleft, hrest⟩ := hsecond between hbetween
  exact ⟨left, hleft, heq.trans hrest⟩

theorem line {line : List Char} (hink : ∃ c tail, isInk c = true ∧ line = c :: tail)
    (hline : scanLine first (line ++ rest) = some (second, rest)) :
    ScansTo first (line ++ rest) second rest := by
  intro steps hsteps
  obtain ⟨c, tail, hink, rfl⟩ := hink
  simp only [List.length_append, List.length_cons] at hsteps
  obtain ⟨steps, rfl⟩ : ∃ n, steps = n + 1 := ⟨steps - 1, by omega⟩
  refine ⟨steps, by omega, ?_⟩
  rw [List.cons_append] at hline ⊢
  rw [scanLines, skipSpace_of_ink hink]
  simp only [skipComment_of_ink hink, scanNewline?_of_ink hink, hline]

theorem blank (progress : Progress) (rest : List Char) :
    ScansTo progress ('\n' :: rest) progress rest := by
  intro steps hsteps
  rw [List.length_cons] at hsteps
  obtain ⟨steps, rfl⟩ : ∃ n, steps = n + 1 := ⟨steps - 1, by omega⟩
  exact ⟨steps, by omega, rfl⟩

theorem scanLines_eq (h : ScansTo first text second []) :
    scanLines (text.length + 1) first text = some second.items := by
  obtain ⟨left, hleft, heq⟩ := h (text.length + 1) (Nat.lt_succ_self _)
  obtain ⟨left, rfl⟩ : ∃ n, left = n + 1 := ⟨left - 1, by rw [List.length_nil] at hleft; omega⟩
  rw [heq]
  rfl

end ScansTo

/-! ## Entries in a table -/

def valueItems (entries : List (List Char × Document)) : Items :=
  entries.map fun (key, value) => (key, .value value)

/-- What `fill` puts around the entries of a table is the rest of the text so far, with the table
at a path. -/
def IsAround (current : List (List Char)) (fill : Items → Items) : Prop :=
  ∀ change inner, Items.changeAt change current (fill inner) = (change inner).map fill

theorem isAround_id : IsAround [] id := by
  intro change inner
  simp [Items.changeAt]

theorem Items.lookup_append_self {items : Items} {key : List Char}
    (hfresh : items.lookup key = none) (item : Item) :
    (items ++ [(key, item)]).lookup key = some item := by
  simp [List.lookup_append, hfresh]

theorem Items.put_append_self {items : Items} {key : List Char}
    (hfresh : items.lookup key = none) (item other : Item) :
    Items.put (items ++ [(key, item)]) key other = items ++ [(key, other)] := by
  induction items with
  | nil => simp [Items.put]
  | cons entry items ih =>
      obtain ⟨next, entry⟩ := entry
      obtain ⟨hother, hrest⟩ := Items.of_lookup_cons hfresh
      simp [Items.put, Ne.symm hother, ih hrest]

theorem isAround_last {items : Items} {key : List Char} (hfresh : items.lookup key = none) :
    IsAround [key] fun inner => items ++ [(key, .table .header inner)] := by
  intro change inner
  simp only [Items.changeAt, Items.lookup_append_self hfresh, Items.put_append_self hfresh]

theorem scansTo_entries {current : List (List Char)} {fill : Items → Items}
    (hfill : IsAround current fill) {entries : List (List Char × Document)}
    (h : ArePlain entries) (items : Items)
    (hfresh : ∀ entry ∈ entries, items.lookup entry.1 = none) (rest : List Char) :
    ScansTo ⟨fill items, current⟩ (entries.flatMap writeEntry ++ rest)
      ⟨fill (items ++ valueItems entries), current⟩ rest := by
  induction entries generalizing items with
  | nil => simpa [valueItems] using ScansTo.refl ⟨fill items, current⟩ rest
  | cons entry entries ih =>
      obtain ⟨key, value⟩ := entry
      obtain ⟨hkey, hvalue, hnew, hentries⟩ := h.of_cons
      obtain ⟨hkeyFresh, hfresh⟩ := List.forall_mem_cons.1 hfresh
      have hadded : Items.changeAt (Items.insert true [] key value) current (fill items) =
          some (fill (items ++ [(key, .value value)])) := by
        simp [hfill _ items, Items.insert, hkeyFresh, Items.put_of_fresh hkeyFresh]
      obtain ⟨c, tail, hink, -, hhead⟩ := exists_head_writeEntry hkey hvalue
      have hline : ScansTo ⟨fill items, current⟩
          (writeEntry (key, value) ++ (entries.flatMap writeEntry ++ rest))
          ⟨fill (items ++ [(key, .value value)]), current⟩ (entries.flatMap writeEntry ++ rest) :=
        .line ⟨c, tail, hink, hhead⟩ (scanLine_entry hkey hvalue hadded _)
      have hothers := ih hentries _ (Items.fresh_append hfresh hnew (.value value))
      rw [List.append_assoc] at hothers
      simpa [valueItems] using hline.trans hothers

theorem isTable_of_isPlain {document : Document} (h : IsPlain document) :
    isTable document = false := by
  cases h with
  | number hnumber => cases hnumber <;> rfl
  | text value => rfl
  | list hitems => rfl

theorem writeTable_of_isPlain (path : List (List Char)) (atStart : Bool) {document : Document}
    (h : IsPlain document) : writeTable path atStart document = [] := by
  cases h with
  | number hnumber => cases hnumber <;> rfl
  | text value => rfl
  | list hitems => rfl

theorem writeTables_append {entries : List (List Char × Document)} (h : ArePlain entries)
    (path : List (List Char)) (atStart : Bool) (others : List (List Char × Document)) :
    writeTables path atStart (entries ++ others) = writeTables path atStart others := by
  induction entries with
  | nil => rfl
  | cons entry entries ih =>
      obtain ⟨key, value⟩ := entry
      obtain ⟨-, hvalue, -, hentries⟩ := h.of_cons
      simp [writeTables, writeTable_of_isPlain _ _ hvalue, isTable_of_isPlain hvalue, ih hentries]

theorem writePlain_append {entries others : List (List Char × Document)} (h : ArePlain entries)
    (hothers : ∀ entry ∈ others, isTable entry.2 = true) :
    writePlain (entries ++ others) = entries.flatMap writeEntry := by
  have hplain : entries.filter (fun entry => !isTable entry.2) = entries :=
    List.filter_eq_self.2 fun entry hentry => by simp [isTable_of_isPlain (h.values entry hentry)]
  have htables : others.filter (fun entry => !isTable entry.2) = [] :=
    List.filter_eq_nil_iff.2 fun entry hentry => by simp [hothers entry hentry]
  rw [writePlain, List.filter_append, hplain, htables, List.append_nil]

/-! ## Tables under headers -/

def sectionEntries (sections : List (List Char × List (List Char × Document))) :
    List (List Char × Document) :=
  sections.map fun (key, entries) => (key, .table entries)

def sectionItems (sections : List (List Char × List (List Char × Document))) : Items :=
  sections.map fun (key, entries) => (key, .table .header (valueItems entries))

theorem scansTo_section {items : Items} {key : List Char} {entries : List (List Char × Document)}
    (hkey : IsBareKey key) (hfresh : items.lookup key = none) (h : ArePlain entries)
    (current : List (List Char)) (atStart : Bool) (rest : List Char) :
    ScansTo ⟨items, current⟩ (writeTable [key] atStart (.table entries) ++ rest)
      ⟨items ++ [(key, .table .header (valueItems entries))], [key]⟩ rest := by
  let body := entries.flatMap writeEntry ++ rest
  have hwrite : writeTable [key] atStart (.table entries) ++ rest =
      (if atStart then [] else ['\n']) ++ (writeHeader [key] ++ body) := by
    have hplain : writePlain (entries ++ []) = entries.flatMap writeEntry :=
      writePlain_append h nofun
    have htables := writeTables_append h [key] false []
    rw [List.append_nil] at hplain htables
    simp [writeTable, hplain, htables, writeTables, body]
  have hopened : items.openTable [] key = some (items ++ [(key, .table .header [])]) := by
    simp [Items.openTable, Items.changeAt, hfresh, Items.put_of_fresh hfresh]
  have hheader : ScansTo ⟨items, current⟩ (writeHeader [key] ++ body)
      ⟨items ++ [(key, .table .header [])], [key]⟩ body :=
    .line ⟨'[', _, rfl, rfl⟩ (scanLine_header current hkey hopened body)
  have hentries : ScansTo ⟨items ++ [(key, .table .header [])], [key]⟩ body
      ⟨items ++ [(key, .table .header (valueItems entries))], [key]⟩ rest :=
    scansTo_entries (isAround_last hfresh) h [] (fun _ _ => rfl) rest
  rw [hwrite]
  cases atStart with
  | true => exact hheader.trans hentries
  | false => exact (ScansTo.blank _ _).trans (hheader.trans hentries)

theorem scansTo_sections {sections : List (List Char × List (List Char × Document))}
    (h : AreSections sections) (items : Items) (current : List (List Char))
    (hfresh : ∀ entry ∈ sections, items.lookup entry.1 = none) (atStart : Bool) :
    ∃ last, ScansTo ⟨items, current⟩ (writeTables [] atStart (sectionEntries sections))
      ⟨items ++ sectionItems sections, last⟩ [] := by
  induction sections generalizing items current atStart with
  | nil =>
      refine ⟨current, ?_⟩
      rw [sectionItems, List.map_nil, List.append_nil]
      exact ScansTo.refl _ []
  | cons entry sections ih =>
      obtain ⟨key, entries⟩ := entry
      obtain ⟨hkey, hentries, hnew, hsections⟩ := h.of_cons
      obtain ⟨hkeyFresh, hfresh⟩ := List.forall_mem_cons.1 hfresh
      let header := Item.table .header (valueItems entries)
      obtain ⟨last, hothers⟩ := ih hsections (items ++ [(key, header)]) [key]
        (Items.fresh_append hfresh hnew header) (atStart && !true)
      have hfirst := scansTo_section hkey hkeyFresh hentries current atStart
        (writeTables [] (atStart && !true) (sectionEntries sections))
      refine ⟨last, ?_⟩
      rw [List.append_assoc] at hothers
      exact hfirst.trans hothers

/-! ## Whole documents -/

theorem entries_append (first second : Items) :
    Items.entries (first ++ second) = Items.entries first ++ Items.entries second := by
  induction first with
  | nil => rfl
  | cons entry first ih =>
      obtain ⟨key, item⟩ := entry
      simp [Items.entries, ih]

theorem entries_valueItems (entries : List (List Char × Document)) :
    Items.entries (valueItems entries) = entries := by
  induction entries with
  | nil => rfl
  | cons entry entries ih =>
      obtain ⟨key, value⟩ := entry
      rw [valueItems, List.map_cons, ← valueItems, Items.entries, ih, Item.document]

theorem entries_sectionItems (sections : List (List Char × List (List Char × Document))) :
    Items.entries (sectionItems sections) = sectionEntries sections := by
  induction sections with
  | nil => rfl
  | cons entry sections ih =>
      obtain ⟨key, entries⟩ := entry
      rw [sectionItems, List.map_cons, ← sectionItems, Items.entries, ih, Item.document,
        entries_valueItems]
      rfl

theorem read?_of_head {text : List Char} (hmark : text.head? ≠ some '\ufeff') :
    read? text = (scanLines (text.length + 1) ⟨[], []⟩ text).map Items.document := by
  unfold read?
  split
  · next rest => exact absurd rfl hmark
  · rfl

section

variable {entries : List (List Char × Document)}
  {sections : List (List Char × List (List Char × Document))}

theorem write_append (h : ArePlain entries) :
    write (.table (entries ++ sectionEntries sections)) =
      entries.flatMap writeEntry ++
        writeTables [] (entries.flatMap writeEntry).isEmpty (sectionEntries sections) := by
  have htables : ∀ entry ∈ sectionEntries sections, isTable entry.2 = true := by
    simp only [sectionEntries, List.mem_map]
    rintro entry ⟨tables, -, rfl⟩
    rfl
  rw [write, writePlain_append h htables, writeTables_append h]

theorem head?_write (h : ArePlain entries) :
    (write (.table (entries ++ sectionEntries sections))).head? ≠ some '\ufeff' := by
  rw [write_append h]
  match entries with
  | [] =>
      match sections with
      | [] => simp [sectionEntries, writeTables]
      | (key, tables) :: sections =>
          simp [sectionEntries, writeTables, writeTable, writeHeader]
  | (key, value) :: entries =>
      obtain ⟨hkey, hvalue, -, -⟩ := h.of_cons
      obtain ⟨c, tail, -, hother, hhead⟩ := exists_head_writeEntry hkey hvalue
      rw [List.flatMap_cons, hhead]
      rintro heq
      simp_all

/-- A document of plain entries, followed by tables of plain entries, is read back as it was
written. -/
theorem read?_write (hentries : ArePlain entries) (hsections : AreSections sections)
    (hdistinct : ∀ entry ∈ sections, entry.1 ∉ entries.map Prod.fst) :
    read? (write (.table (entries ++ sectionEntries sections))) =
      some (.table (entries ++ sectionEntries sections)) := by
  let tables := writeTables [] (entries.flatMap writeEntry).isEmpty (sectionEntries sections)
  have hplain : ScansTo ⟨[], []⟩ (entries.flatMap writeEntry ++ tables)
      ⟨valueItems entries, []⟩ tables :=
    scansTo_entries isAround_id hentries [] (fun _ _ => rfl) tables
  have hfresh : ∀ entry ∈ sections, (valueItems entries).lookup entry.1 = none := by
    intro entry hentry
    rw [List.lookup_eq_none_iff]
    intro item hitem
    obtain ⟨plain, hmem, rfl⟩ := List.mem_map.1 hitem
    have hne : entry.1 ≠ plain.1 := fun h => hdistinct entry hentry (h ▸ List.mem_map_of_mem hmem)
    simpa using hne
  obtain ⟨last, htables⟩ := scansTo_sections hsections (valueItems entries) [] hfresh
    (entries.flatMap writeEntry).isEmpty
  rw [read?_of_head (head?_write hentries), write_append hentries,
    (hplain.trans htables).scanLines_eq, Option.map_some, Items.document, entries_append,
    entries_valueItems, entries_sectionItems]

theorem read?_write_plain (h : ArePlain entries) :
    read? (write (.table entries)) = some (.table entries) := by
  have hnone : AreSections [] := ⟨by simp, by simp, List.nodup_nil⟩
  have hread := read?_write h hnone (by simp)
  rwa [sectionEntries, List.map_nil, List.append_nil] at hread

end

end Gcode.Toml
