/-!
# Positions in a text

Columns count bytes in UTF-8.  `suffixAt` is the text behind a column, and there is one exactly
where a part of the text ends.
-/

namespace Gcode

def byteLength : List Char → Nat
  | [] => 0
  | c :: rest => c.utf8Size + byteLength rest

/-- The text from a byte offset on; nothing past the end or inside a character. -/
def suffixAt : List Char → Nat → Option (List Char)
  | text, 0 => some text
  | [], _ + 1 => none
  | c :: rest, offset + 1 =>
    if c.utf8Size ≤ offset + 1 then suffixAt rest (offset + 1 - c.utf8Size) else none

@[simp] theorem byteLength_nil : byteLength [] = 0 := rfl

@[simp] theorem byteLength_cons (c : Char) (text : List Char) :
    byteLength (c :: text) = c.utf8Size + byteLength text := rfl

@[simp] theorem byteLength_append (before after : List Char) :
    byteLength (before ++ after) = byteLength before + byteLength after := by
  induction before with
  | nil => simp
  | cons c before ih => rw [List.cons_append, byteLength_cons, ih, byteLength_cons, Nat.add_assoc]

@[simp] theorem suffixAt_zero (text : List Char) : suffixAt text 0 = some text := by
  cases text <;> rfl

theorem suffixAt_append (before after : List Char) :
    suffixAt (before ++ after) (byteLength before) = some after := by
  induction before with
  | nil => simp
  | cons c before ih =>
    have positive : 0 < c.utf8Size := Char.utf8Size_pos c
    have total := byteLength_cons c before
    obtain ⟨more, size⟩ : ∃ more, byteLength (c :: before) = more + 1 :=
      ⟨byteLength (c :: before) - 1, by omega⟩
    rw [size, List.cons_append, suffixAt, if_pos (by omega),
      show more + 1 - c.utf8Size = byteLength before by omega]
    exact ih

theorem suffixAt_eq_some_iff {text rest : List Char} {offset : Nat} :
    suffixAt text offset = some rest ↔
      ∃ before, text = before ++ rest ∧ byteLength before = offset := by
  constructor
  · intro found
    fun_induction suffixAt text offset with
    | case1 text => exact ⟨[], by simpa using found, rfl⟩
    | case2 => simp at found
    | case3 c tail offset fits ih =>
      obtain ⟨before, rfl, size⟩ := ih found
      exact ⟨c :: before, rfl, by rw [byteLength_cons]; omega⟩
    | case4 => simp at found
  · rintro ⟨before, rfl, rfl⟩
    exact suffixAt_append before rest

end Gcode
