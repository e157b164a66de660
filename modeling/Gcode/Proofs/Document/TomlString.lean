import Gcode.Document.TomlString
import Gcode.Proofs.Document.Number
import Mathlib.Tactic.SplitIfs

/-!
# TOML strings as they are written

Every text is read back from its string (`scanString_writeString`), whichever of the four kinds the
writer takes.  In a string over several lines up to two quotes in a row stand for themselves, and
those at its end are followed by the three that close it; the reader takes all of them at once.  So
the body of such a string is described with the quotes in front of it (`IsBody`).
-/

namespace Gcode.Toml

/-! ## Characters -/

theorem not_newline_of_isPlain {c : Char} (hc : isPlain c = true) : c ∉ ['\n', '\r'] :=
  not_mem_of_all_not hc (by decide)

theorem isPlain_or_newline {c : Char} (hc : needsEscape c = false) :
    isPlain c = true ∨ c = '\n' := by
  by_cases htab : c = '\t'
  · exact .inl (by simp [isPlain, htab])
  · by_cases hline : c = '\n'
    · exact .inr hline
    · simp only [needsEscape, bne_iff_ne.2 htab, bne_iff_ne.2 hline, Bool.and_true,
        Bool.or_eq_false_iff, decide_eq_false_iff_not, beq_eq_false_iff_ne] at hc
      have hlow : 0x20 ≤ c.toNat := by omega
      exact .inl (by simp [isPlain, hlow, hc.2])

theorem scanNewline?_eq_none {c : Char} (hc : c ∉ ['\n', '\r']) (rest : List Char) :
    scanNewline? (c :: rest) = none := by
  unfold scanNewline?
  split
  · next heq => exact absurd heq (cons_ne_cons_of_not_mem hc (by simp) _ _)
  · next heq => exact absurd heq (cons_ne_cons_of_not_mem hc (by simp) _ _)
  · rfl

/-! ## Escapes -/

theorem scanCode_suffix {digits : List Char} {count code : Nat} {c : Char}
    (hlength : digits.length = count)
    (hvalue : digits.foldlM (fun value digit => (hexValue? digit).map (16 * value + ·)) 0 =
      some code) (hc : charOfCode? code = some c) (rest : List Char) :
    scanCode count (digits ++ rest) = some (c, rest) := by
  subst hlength
  simp only [scanCode, List.take_left, List.drop_left, Nat.lt_irrefl, if_false,
    Option.bind_eq_bind, hvalue, Option.bind_some, hc]
  rfl

theorem scanCode_toDigits {c : Char} (hc : c.toNat ≤ 0x7F) (rest : List Char) :
    let digits := (Nat.toDigits 16 c.toNat).map Char.toUpper
    scanCode 4 (List.replicate (4 - digits.length) '0' ++ digits ++ rest) = some (c, rest) := by
  have hall : ∀ code ≤ 0x7F,
      let digits := (Nat.toDigits 16 code).map Char.toUpper
      let padded := List.replicate (4 - digits.length) '0' ++ digits
      padded.length = 4 ∧
        padded.foldlM (fun value digit => (hexValue? digit).map (16 * value + ·)) 0 =
          some code := by
    decide +kernel
  obtain ⟨hlength, hvalue⟩ := hall c.toNat hc
  refine scanCode_suffix hlength hvalue ?_ rest
  rw [charOfCode?, if_pos (by simp; omega), Char.ofNat_toNat]

theorem exists_escape {long : Bool} {c : Char} {escape : List Char}
    (hescape : escape? long c = some escape) :
    ∃ tail, escape = '\\' :: tail ∧ ∀ rest, scanEscape (tail ++ rest) = some (c, rest) ∧
      scanNewline? (skipSpace (tail ++ rest)) = none := by
  unfold escape? at hescape
  split_ifs at hescape with hb ht hn hlong hf hr hslash hcontrol
  case pos | pos | neg | pos | pos | pos =>
    obtain rfl := Option.some.inj hescape
    subst c
    exact ⟨_, rfl, fun rest => ⟨rfl, rfl⟩⟩
  · obtain rfl := Option.some.inj hescape
    have hc : c.toNat ≤ 0x7F := by
      simp only [needsEscape, Bool.or_eq_true, Bool.and_eq_true, decide_eq_true_eq,
        beq_iff_eq] at hcontrol
      omega
    exact ⟨_, rfl, fun rest => ⟨scanCode_toDigits hc rest, rfl⟩⟩

theorem of_escape?_eq_none {long : Bool} {c : Char} (hescape : escape? long c = none) :
    c ≠ '\\' ∧ (isPlain c = true ∨ c = '\n' ∧ long = true) := by
  unfold escape? at hescape
  split_ifs at hescape with hb ht hn hlong hf hr hslash hcontrol
  · exact ⟨by simp [hn], .inr ⟨hn, hlong⟩⟩
  · exact ⟨hslash, .inl ((isPlain_or_newline (by simpa using hcontrol)).resolve_right hn)⟩

/-! ## On one line -/

theorem scanBasic_backslash {text rest : List Char} {c : Char}
    (hread : scanEscape text = some (c, rest)) (steps : Nat) :
    scanBasic (steps + 1) ('\\' :: text) =
      (scanBasic steps rest).map fun (text, rest) => (c :: text, rest) := by
  simp only [scanBasic, hread, Option.bind_eq_bind, Option.bind_some]
  cases scanBasic steps rest <;> rfl

theorem exists_written (c : Char) :
    ∃ first others, first ≠ '"' ∧
      (∀ text, escapeBasic false 0 (c :: text) = first :: others ++ escapeBasic false 0 text) ∧
      ∀ steps rest, scanBasic (steps + 1) (first :: others ++ rest) =
        (scanBasic steps rest).map fun (text, rest) => (c :: text, rest) := by
  by_cases hquote : c = '"'
  · subst c
    exact ⟨'\\', ['"'], by decide, fun _ => rfl, fun steps _ => scanBasic_backslash rfl steps⟩
  · cases hescape : escape? false c with
    | some escape =>
        obtain ⟨tail, rfl, hread⟩ := exists_escape hescape
        exact ⟨'\\', tail, by decide, fun text => by simp [escapeBasic, hquote, hescape],
          fun steps rest => scanBasic_backslash (hread rest).1 steps⟩
    | none =>
        obtain ⟨hslash, hplain⟩ := of_escape?_eq_none hescape
        have hplain : isPlain c = true := by simpa using hplain
        refine ⟨c, [], hquote, fun text => by simp [escapeBasic, hquote, hescape],
          fun steps rest => ?_⟩
        rw [List.singleton_append, scanBasic, if_pos hplain]
        · exact hquote
        · exact hslash

theorem scanBasic_escapeBasic (text rest : List Char) {steps : Nat}
    (hsteps : (escapeBasic false 0 text).length < steps) :
    scanBasic steps (escapeBasic false 0 text ++ '"' :: rest) = some (text, rest) := by
  obtain ⟨steps, rfl⟩ : ∃ n, steps = n + 1 := ⟨steps - 1, by omega⟩
  induction text generalizing steps with
  | nil => rfl
  | cons c text ih =>
      obtain ⟨first, others, -, hwrite, hread⟩ := exists_written c
      rw [hwrite, List.length_append, List.length_cons] at hsteps
      obtain ⟨steps, rfl⟩ : ∃ n, steps = n + 1 := ⟨steps - 1, by omega⟩
      rw [hwrite, List.append_assoc, hread, ih steps (by omega)]
      rfl

theorem scanLiteral_self {text : List Char} (htext : ∀ c ∈ text, isPlain c = true ∧ c ≠ '\'')
    (rest : List Char) : scanLiteral (text ++ '\'' :: rest) = some (text, rest) := by
  induction text with
  | nil => rfl
  | cons c text ih =>
      obtain ⟨⟨hplain, hquote⟩, htext⟩ := List.forall_mem_cons.1 htext
      rw [List.cons_append, scanLiteral, if_pos hplain, ih htext]
      · rfl
      · exact hquote

/-! ## Over several lines -/

/-- What a character is written as in a string over several lines: something that is read in one
step, and starts neither with a quote nor, unless the character is one, with a line end. -/
structure IsWrittenAs (quote c : Char) (written : List Char) : Prop where
  exists_head : ∃ first others, written = first :: others ∧ first ≠ quote ∧
    (c = '\n' ∨ first ∉ ['\n', '\r'])
  scanLong : ∀ steps rest, scanLong quote (steps + 1) (written ++ rest) =
    (Toml.scanLong quote steps rest).map fun (text, rest) => (c :: text, rest)

theorem isWrittenAs_self {quote c : Char} (hquote : c ≠ quote) (hslash : c = '\\' → quote ≠ '"')
    (hplain : isPlain c = true ∨ c = '\n') : IsWrittenAs quote c [c] where
  exists_head := ⟨c, [], rfl, hquote, hplain.symm.imp_right not_newline_of_isPlain⟩
  scanLong steps rest := by
    have hescape : ¬ (c = '\\' && quote = '"') = true := by simpa using hslash
    rw [List.singleton_append, Toml.scanLong, if_neg hquote, if_neg hescape]
    rcases hplain with hplain | rfl
    · rw [scanNewline?_eq_none (not_newline_of_isPlain hplain)]
      simp only [if_pos hplain]
    · rfl

theorem isWrittenAs_backslash {c : Char} {tail : List Char}
    (hread : ∀ rest, scanEscape (tail ++ rest) = some (c, rest) ∧
      scanNewline? (skipSpace (tail ++ rest)) = none) : IsWrittenAs '"' c ('\\' :: tail) where
  exists_head := ⟨'\\', tail, rfl, by decide, .inr (by decide)⟩
  scanLong steps rest := by
    obtain ⟨hescape, hline⟩ := hread rest
    rw [List.cons_append, Toml.scanLong, if_neg (by decide), if_pos (by decide), hline]
    simp only [hescape, Option.bind_eq_bind, Option.bind_some]
    cases Toml.scanLong '"' steps rest <;> rfl

theorem isWrittenAs_escape? {c : Char} (hquote : c ≠ '"') :
    IsWrittenAs '"' c ((escape? true c).getD [c]) := by
  cases hescape : escape? true c with
  | some escape =>
      obtain ⟨tail, rfl, hread⟩ := exists_escape hescape
      exact isWrittenAs_backslash hread
  | none =>
      obtain ⟨hslash, hplain⟩ := of_escape?_eq_none hescape
      exact isWrittenAs_self hquote (fun h => absurd h hslash) (hplain.imp_right And.left)

/-- The body of a string over several lines and its text, where `run` quotes stand in front. -/
inductive IsBody (quote : Char) : (run : Nat) → (body text : List Char) → Prop where
  | nil {run : Nat} : IsBody quote run [] []
  | quote {run : Nat} {body text : List Char} (hrun : run < 2)
      (hbody : IsBody quote (run + 1) body text) :
      IsBody quote run (quote :: body) (quote :: text)
  | char {run : Nat} {c : Char} {written body text : List Char}
      (hwritten : IsWrittenAs quote c written) (hbody : IsBody quote 0 body text) :
      IsBody quote run (written ++ body) (c :: text)

section

variable {quote : Char} {run : Nat} {rest : List Char}

theorem takeWhile_replicate_quote (hrest : rest.head? ≠ some quote) :
    (List.replicate run quote ++ rest).takeWhile (· == quote) = List.replicate run quote := by
  rw [List.takeWhile_append_of_pos (by simp)]
  cases rest with
  | nil => simp
  | cons c rest =>
      have hc : (c == quote) = false := by simpa using hrest
      simp [hc]

theorem scanLong_run (hpos : 0 < run) (hrun : run ≤ 2) (hrest : rest.head? ≠ some quote)
    (steps : Nat) :
    scanLong quote (steps + 1) (List.replicate run quote ++ rest) =
      (scanLong quote steps rest).map
        fun (text, rest) => (List.replicate run quote ++ text, rest) := by
  have hquotes : scanQuotes quote (List.replicate run quote ++ rest) =
      (List.replicate run quote, false, rest) := by
    simp only [scanQuotes, takeWhile_replicate_quote hrest, List.length_replicate]
    rw [if_pos (by omega), List.drop_left' List.length_replicate]
  obtain ⟨run, rfl⟩ : ∃ n, run = n + 1 := ⟨run - 1, by omega⟩
  rw [List.replicate_succ, List.cons_append] at hquotes ⊢
  rw [scanLong, if_pos rfl, hquotes]
  rfl

theorem scanLong_close (hrun : run ≤ 2) (hrest : rest.head? ≠ some quote) (steps : Nat) :
    scanLong quote (steps + 1) (List.replicate run quote ++ (quote :: quote :: quote :: rest)) =
      some (List.replicate run quote, rest) := by
  have hjoin : List.replicate run quote ++ (quote :: quote :: quote :: rest) =
      List.replicate (run + 3) quote ++ rest := by
    rw [← List.replicate_append_replicate, List.append_assoc]
    rfl
  have hquotes : scanQuotes quote (List.replicate (run + 3) quote ++ rest) =
      (List.replicate run quote, true, rest) := by
    have hinside : min (run + 3 - 3) 2 = run := by omega
    simp only [scanQuotes, takeWhile_replicate_quote hrest, List.length_replicate]
    rw [if_neg (by omega), hinside, List.drop_left' List.length_replicate]
  rw [hjoin]
  rw [List.replicate_succ, List.cons_append] at hquotes ⊢
  rw [scanLong, if_pos rfl, hquotes]
  rfl

theorem IsBody.scanLong {body text : List Char} (h : IsBody quote run body text) (hrun : run ≤ 2)
    (hrest : rest.head? ≠ some quote) {steps : Nat} (hsteps : run + body.length < steps) :
    Toml.scanLong quote steps
        (List.replicate run quote ++ (body ++ (quote :: quote :: quote :: rest))) =
      some (List.replicate run quote ++ text, rest) := by
  obtain ⟨steps, rfl⟩ : ∃ n, steps = n + 1 := ⟨steps - 1, by omega⟩
  induction h generalizing steps with
  | nil => simpa using scanLong_close hrun hrest steps
  | @quote run body text hmore hbody ih =>
      have hread := ih hmore steps (by rw [List.length_cons] at hsteps; omega)
      simpa [List.replicate_succ'] using hread
  | @char run c written body text hwritten hbody ih =>
      obtain ⟨first, others, hhead, hquote, -⟩ := hwritten.exists_head
      have hlength : 0 < written.length := by simp [hhead]
      rw [List.length_append] at hsteps
      have hchar {steps : Nat} (hsteps : body.length + 1 < steps + 1) :
          Toml.scanLong quote (steps + 1)
              (written ++ (body ++ (quote :: quote :: quote :: rest))) =
            some (c :: text, rest) := by
        obtain ⟨steps, rfl⟩ : ∃ n, steps = n + 1 := ⟨steps - 1, by omega⟩
        rw [hwritten.scanLong]
        have hread := ih (by omega) steps (by omega)
        simp only [List.replicate_zero, List.nil_append] at hread
        rw [hread]
        rfl
      rw [List.append_assoc]
      rcases Nat.eq_zero_or_pos run with rfl | hpos
      · exact hchar (by omega)
      · obtain ⟨steps, rfl⟩ : ∃ n, steps = n + 1 := ⟨steps - 1, by omega⟩
        rw [scanLong_run hpos hrun (by simp [hhead, hquote]), hchar (by omega)]
        rfl

theorem IsBody.scanNewline? {body text : List Char} (h : IsBody quote run body text)
    (hquote : quote ∉ ['\n', '\r']) (htext : '\n' ∉ text) :
    Toml.scanNewline? (body ++ quote :: rest) = none := by
  cases h with
  | nil => exact scanNewline?_eq_none hquote _
  | quote hrun hbody => exact scanNewline?_eq_none hquote _
  | char hwritten hbody =>
      obtain ⟨first, others, rfl, -, hfirst⟩ := hwritten.exists_head
      exact scanNewline?_eq_none (hfirst.resolve_left fun h => htext (by simp [h])) _

theorem IsBody.scanLongBody {body text : List Char} (h : IsBody quote 0 body text)
    (hquote : quote ∉ ['\n', '\r']) (hrest : rest.head? ≠ some quote) :
    Toml.scanLongBody quote
        (openingBreak text ++ (body ++ (quote :: quote :: quote :: rest))) =
      some (text, rest) := by
  have hsteps : 0 + body.length < (body ++ (quote :: quote :: quote :: rest)).length + 1 := by
    rw [List.length_append]
    omega
  have hscan := h.scanLong (Nat.zero_le 2) hrest hsteps
  have hopen : (Toml.scanNewline?
      (openingBreak text ++ (body ++ (quote :: quote :: quote :: rest)))).getD
        (openingBreak text ++ (body ++ (quote :: quote :: quote :: rest))) =
      body ++ (quote :: quote :: quote :: rest) := by
    by_cases htext : '\n' ∈ text
    · simp [openingBreak, htext, Toml.scanNewline?]
    · simp [openingBreak, htext, h.scanNewline? hquote htext]
  rw [Toml.scanLongBody, hopen]
  exact hscan

end

theorem isBody_escapeBasic (run : Nat) (text : List Char) :
    IsBody '"' run (escapeBasic true run text) text := by
  induction text generalizing run with
  | nil => exact .nil
  | cons c text ih =>
      simp only [escapeBasic, ↓reduceIte]
      split
      · next hquote =>
          subst c
          split
          · next hrun => exact .quote hrun (ih (run + 1))
          · have hwritten : IsWrittenAs '"' '"' ['\\', '"'] :=
              isWrittenAs_backslash fun _ => ⟨rfl, rfl⟩
            exact .char hwritten (ih 0)
      · next hquote => exact .char (isWrittenAs_escape? hquote) (ih 0)

/-! ## Runs of quotes -/

def longestFrom (c : Char) (longest run : Nat) : List Char → Nat
  | [] => longest
  | next :: text =>
    if next = c then longestFrom c (max longest (run + 1)) (run + 1) text
    else longestFrom c longest 0 text

theorem longestRun_eq (c : Char) (text : List Char) :
    longestRun c text = longestFrom c 0 0 text := by
  have hfrom (longest run : Nat) : (text.foldl (fun counts next =>
      if next = c then (max counts.1 (counts.2 + 1), counts.2 + 1) else (counts.1, 0))
        (longest, run)).1 = longestFrom c longest run text := by
    induction text generalizing longest run with
    | nil => rfl
    | cons next text ih =>
        by_cases hnext : next = c <;> simp [longestFrom, hnext, ih]
  exact hfrom 0 0

theorem le_longestFrom (c : Char) (longest run : Nat) (text : List Char) :
    longest ≤ longestFrom c longest run text := by
  induction text generalizing longest run with
  | nil => exact Nat.le_refl longest
  | cons next text ih =>
      rw [longestFrom]
      split
      · exact Nat.le_trans (Nat.le_max_left _ _) (ih _ _)
      · exact ih _ _

theorem not_mem_of_longestFrom {c : Char} {run : Nat} {text : List Char}
    (h : longestFrom c 0 run text = 0) : c ∉ text := by
  induction text generalizing run with
  | nil => exact List.not_mem_nil
  | cons next text ih =>
      rw [longestFrom] at h
      split at h
      · have hrun := le_longestFrom c (max 0 (run + 1)) (run + 1) text
        omega
      · next hnext => simpa [Ne.symm hnext] using ih h

theorem isBody_self {longest run : Nat} {text : List Char}
    (hplain : ∀ c ∈ text, isPlain c = true ∨ c = '\n')
    (hlongest : longestFrom '\'' longest run text ≤ 2) : IsBody '\'' run text text := by
  induction text generalizing longest run with
  | nil => exact .nil
  | cons c text ih =>
      obtain ⟨hc, hothers⟩ := List.forall_mem_cons.1 hplain
      rw [longestFrom] at hlongest
      split at hlongest
      · next hquote =>
          have hrun := le_longestFrom '\'' (max longest (run + 1)) (run + 1) text
          subst c
          exact .quote (by omega) (ih hothers hlongest)
      · next hquote =>
          have hwritten : IsWrittenAs '\'' c [c] :=
            isWrittenAs_self hquote (fun _ => by decide) hc
          exact .char hwritten (ih hothers hlongest)

/-! ## All kinds -/

theorem exists_head_writeString (text : List Char) :
    ∃ c body, (c = '"' ∨ c = '\'') ∧ writeString text = c :: body := by
  simp only [writeString, List.append_assoc]
  split_ifs
  all_goals first
    | exact ⟨'"', _, .inl rfl, rfl⟩
    | exact ⟨'\'', _, .inr rfl, rfl⟩

section

variable {text rest : List Char}

theorem scanString_basic (hrest : rest.head? ≠ some '"') :
    scanString (['"'] ++ escapeBasic false 0 text ++ ['"'] ++ rest) = some (text, rest) := by
  have hsteps : (escapeBasic false 0 text).length <
      (escapeBasic false 0 text ++ '"' :: rest).length + 1 := by
    rw [List.length_append]
    omega
  have hbody (after : List Char) :
      escapeBasic false 0 text ++ '"' :: rest ≠ '"' :: '"' :: after := by
    cases text with
    | nil =>
        rintro heq
        simp_all [escapeBasic]
    | cons c text =>
        obtain ⟨first, others, hfirst, hwrite, -⟩ := exists_written c
        rw [hwrite]
        exact fun heq => hfirst (List.cons.inj heq).1
  rw [List.append_assoc, List.append_assoc, List.singleton_append, List.singleton_append,
    scanString, scanBasic_escapeBasic text rest hsteps]
  · exact fun after heq => hbody after heq

theorem scanString_literal (htext : ∀ c ∈ text, isPlain c = true ∧ c ≠ '\'')
    (hrest : rest.head? ≠ some '\'') :
    scanString (['\''] ++ text ++ ['\''] ++ rest) = some (text, rest) := by
  have hbody (after : List Char) : text ++ '\'' :: rest ≠ '\'' :: '\'' :: after := by
    cases text with
    | nil =>
        rintro heq
        simp_all
    | cons c text =>
        exact fun heq => (htext c List.mem_cons_self).2 (List.cons.inj heq).1
  rw [List.append_assoc, List.append_assoc, List.singleton_append, List.singleton_append,
    scanString, scanLiteral_self htext]
  · exact fun after heq => hbody after heq

theorem scanString_long {quote : Char} {body : List Char} (hbody : IsBody quote 0 body text)
    (hquote : quote = '"' ∨ quote = '\'') (hrest : rest.head? ≠ some quote) :
    scanString ([quote, quote, quote] ++ openingBreak text ++ body ++ [quote, quote, quote] ++
      rest) = some (text, rest) := by
  rcases hquote with rfl | rfl <;>
    simpa [scanString] using hbody.scanLongBody (by decide) hrest

theorem scanString_writeString (text : List Char) (hdouble : rest.head? ≠ some '"')
    (hsingle : rest.head? ≠ some '\'') :
    scanString (writeString text ++ rest) = some (text, rest) := by
  have hlongBasic := scanString_long (isBody_escapeBasic 0 text) (.inl rfl) hdouble
  have hplain (hcontrols : (!text.any needsEscape) = true) (c : Char) (hc : c ∈ text) :
      isPlain c = true ∨ c = '\n' := by
    simp only [Bool.not_eq_true', List.any_eq_false] at hcontrols
    exact isPlain_or_newline (by simpa using hcontrols c hc)
  simp only [writeString]
  split_ifs with _ hliteral _ hlongLiteral
  · exact scanString_basic hdouble
  · simp only [Bool.and_eq_true, beq_iff_eq, longestRun_eq] at hliteral
    obtain ⟨⟨hcontrols, hquotes⟩, hline⟩ := hliteral
    refine scanString_literal (fun c hc => ⟨(hplain hcontrols c hc).resolve_right ?_, ?_⟩) hsingle
    · rintro rfl
      simp_all
    · rintro rfl
      exact not_mem_of_longestFrom hquotes hc
  · exact hlongBasic
  · simp only [Bool.and_eq_true, decide_eq_true_eq, longestRun_eq] at hlongLiteral
    obtain ⟨hcontrols, hquotes⟩ := hlongLiteral
    exact scanString_long (isBody_self (hplain hcontrols) hquotes) (.inr rfl) hsingle
  · exact hlongBasic
  · exact scanString_basic hdouble

end

end Gcode.Toml
