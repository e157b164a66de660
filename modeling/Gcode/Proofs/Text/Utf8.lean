import Gcode.Text.Position

/-!
# Texts in UTF-8

The bytes of a text are those of its characters.  A character of ASCII is a byte of its own, and all
bytes of any other character are 0x80 or more, so a byte below that shows where a character stands.
-/

namespace Gcode

def encodeText (text : List Char) : List UInt8 := text.flatMap String.utf8EncodeChar

@[simp] theorem encodeText_cons (c : Char) (text : List Char) :
    encodeText (c :: text) = String.utf8EncodeChar c ++ encodeText text := rfl

theorem encodeText_append (before after : List Char) :
    encodeText (before ++ after) = encodeText before ++ encodeText after := List.flatMap_append

@[simp] theorem length_encodeText (text : List Char) :
    (encodeText text).length = byteLength text := by
  induction text with
  | nil => rfl
  | cons c text ih =>
      rw [encodeText_cons, List.length_append, String.length_utf8EncodeChar, ih, byteLength_cons]

theorem utf8EncodeChar_of_toNat_lt {c : Char} (h : c.toNat < 0x80) :
    String.utf8EncodeChar c = [UInt8.ofNat c.toNat] := by
  have hsmall : c.val.toNat ≤ 127 := Nat.le_of_lt_succ h
  simp only [String.utf8EncodeChar, if_pos hsmall]
  rfl

theorem le_toNat_of_mem_utf8EncodeChar {c : Char} (hc : 0x80 ≤ c.toNat) {byte : UInt8}
    (hbyte : byte ∈ String.utf8EncodeChar c) : 0x80 ≤ byte.toNat := by
  have hlarge : ¬ c.val.toNat ≤ 127 := Nat.not_le_of_lt hc
  simp only [String.utf8EncodeChar, if_neg hlarge] at hbyte
  -- the marks that UTF-8 sets in the bytes of such a character: 0xC0, 0xE0, 0xF0 and 0x80
  split at hbyte
  · simp only [List.mem_cons, List.not_mem_nil, or_false] at hbyte
    rcases hbyte with rfl | rfl <;> simp only [UInt8.toNat_ofNat'] <;> omega
  · split at hbyte <;> simp only [List.mem_cons, List.not_mem_nil, or_false] at hbyte
    · rcases hbyte with rfl | rfl | rfl <;> simp only [UInt8.toNat_ofNat'] <;> omega
    · rcases hbyte with rfl | rfl | rfl | rfl <;> simp only [UInt8.toNat_ofNat'] <;> omega

theorem ascii_not_mem_utf8EncodeChar {c : Char} {code : Nat} (ascii : code < 0x80)
    (hc : c.val.toNat ≠ code) : UInt8.ofNat code ∉ String.utf8EncodeChar c := by
  intro hmem
  have hcode : (UInt8.ofNat code).toNat = code := by
    rw [UInt8.toNat_ofNat', Nat.mod_eq_of_lt (by omega)]
  by_cases hsmall : c.toNat < 0x80
  · rw [utf8EncodeChar_of_toNat_lt hsmall, List.mem_singleton] at hmem
    have hsame := congrArg UInt8.toNat hmem
    rw [hcode, UInt8.toNat_ofNat', Nat.mod_eq_of_lt (by omega)] at hsame
    exact hc hsame.symm
  · have hlarge := le_toNat_of_mem_utf8EncodeChar (Nat.le_of_not_lt hsmall) hmem
    omega

theorem feed_not_mem_utf8EncodeChar {c : Char} (hc : c ≠ '\n') :
    10 ∉ String.utf8EncodeChar c :=
  @ascii_not_mem_utf8EncodeChar c 10 (by decide)
    fun h => hc (Char.ext (UInt32.toNat_inj.1 h))

/-! ## Bytes at a position -/

theorem getElem?_encodeText_append (before after : List Char) :
    (encodeText (before ++ after))[byteLength before]? = (encodeText after).head? := by
  rw [encodeText_append, ← length_encodeText before, List.getElem?_append_right (Nat.le_refl _),
    Nat.sub_self, List.head?_eq_getElem?]

theorem le_toNat_of_suffixAt_eq_none {text : List Char} {position : Nat}
    (hcut : suffixAt text position = none) {byte : UInt8}
    (hbyte : (encodeText text)[position]? = some byte) : 0x80 ≤ byte.toNat := by
  fun_induction suffixAt text position with
  | case1 text => contradiction
  | case2 offset => simp [encodeText] at hbyte
  | case3 c rest offset hfits ih =>
      refine ih hcut ?_
      rw [encodeText_cons, List.getElem?_append_right
        (by rw [String.length_utf8EncodeChar]; exact hfits), String.length_utf8EncodeChar] at hbyte
      exact hbyte
  | case4 c rest offset hwithin =>
      have hlong : offset + 1 < (String.utf8EncodeChar c).length := by
        rw [String.length_utf8EncodeChar]
        omega
      rw [encodeText_cons, List.getElem?_append_left hlong] at hbyte
      refine le_toNat_of_mem_utf8EncodeChar (Nat.le_of_not_lt fun hascii => ?_)
        (List.mem_of_getElem? hbyte)
      rw [utf8EncodeChar_of_toNat_lt hascii, List.length_singleton] at hlong
      omega

end Gcode
