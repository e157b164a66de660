import Gcode.Session
import Mathlib.Logic.Relation
import Mathlib.Tactic.SplitIfs

/-!
# Spellings of a line

A line may be spelled with blanks anywhere and with letters of either case.  Two raw lines are
spellings of one line exactly if they are normalised to the same text (`sameSpelling_iff`), so a
session cannot tell them apart.  Normalised texts are those without blanks and small letters.
-/

namespace Gcode

/-! ## Letters of either case -/

theorem toNat_toUpper (c : Char) :
    c.toUpper.toNat = if 97 ≤ c.toNat ∧ c.toNat ≤ 122 then c.toNat - 32 else c.toNat := by
  have hsmall : (c.val ≥ 'a'.val ∧ c.val ≤ 'z'.val) ↔ 97 ≤ c.toNat ∧ c.toNat ≤ 122 := by
    simp only [ge_iff_le, UInt32.le_iff_toNat_le]
    rfl
  split
  · next hletter =>
      have hupper : c.toUpper = _ := dif_pos (hsmall.2 hletter)
      rw [hupper]
      change (c.val + ('A'.val - 'a'.val)).toNat = _
      rw [UInt32.toNat_add]
      change (c.toNat + 4294967264) % 4294967296 = c.toNat - 32
      omega
  · next hletter => exact congrArg Char.toNat (dif_neg (mt hsmall.1 hletter))

theorem toNat_toLower (c : Char) :
    c.toLower.toNat = if 65 ≤ c.toNat ∧ c.toNat ≤ 90 then c.toNat + 32 else c.toNat := by
  have hcapital : (c.val ≥ 'A'.val ∧ c.val ≤ 'Z'.val) ↔ 65 ≤ c.toNat ∧ c.toNat ≤ 90 := by
    simp only [ge_iff_le, UInt32.le_iff_toNat_le]
    rfl
  split
  · next hletter =>
      have hlower : c.toLower = _ := dif_pos (hcapital.2 hletter)
      rw [hlower]
      change (c.val + ('a'.val - 'A'.val)).toNat = _
      rw [UInt32.toNat_add]
      change (c.toNat + 32) % 4294967296 = c.toNat + 32
      omega
  · next hletter => exact congrArg Char.toNat (dif_neg (mt hcapital.1 hletter))

theorem toLower_toUpper (c : Char) : c.toUpper.toLower = c.toLower := by
  rw [← Char.toNat_inj, toNat_toLower, toNat_toLower, toNat_toUpper]
  split_ifs <;> omega

theorem toUpper_toLower (c : Char) : c.toLower.toUpper = c.toUpper := by
  rw [← Char.toNat_inj, toNat_toUpper, toNat_toUpper, toNat_toLower]
  split_ifs <;> omega

theorem isBlank_toLower (c : Char) : isBlank c.toLower = isBlank c := by
  by_cases hletter : 65 ≤ c.toNat ∧ c.toNat ≤ 90
  · have hsmall := toNat_toLower c
    rw [if_pos hletter] at hsmall
    rw [not_isBlank_of_toNat (by omega) (by omega), not_isBlank_of_toNat (by omega) (by omega)]
  · have hsame : c.toLower = c := by
      rw [← Char.toNat_inj, toNat_toLower, if_neg hletter]
    rw [hsame]

/-! ## Spellings -/

inductive Respelling : List Char → List Char → Prop where
  | blank (before after : List Char) {c : Char} (h : isWhiteSpace c = true ∨ isControl c = true) :
      Respelling (before ++ after) (before ++ c :: after)
  | letter (before after : List Char) {c d : Char} (h : c.toLower = d.toLower) :
      Respelling (before ++ c :: after) (before ++ d :: after)

/-- Two raw lines differ in changes of spelling alone, made or taken back. -/
def SameSpelling : List Char → List Char → Prop := Relation.EqvGen Respelling

theorem Respelling.normalized_eq {left right : List Char} (h : Respelling left right) :
    normalized left = normalized right := by
  cases h with
  | @blank before after c h =>
      have hblank : isBlank c = true := by simpa [isBlank] using h
      simp [normalized, hblank]
  | @letter before after c d h =>
      have hblank : isBlank c = isBlank d := by rw [← isBlank_toLower, h, isBlank_toLower]
      have hupper : c.toUpper = d.toUpper := by rw [← toUpper_toLower, h, toUpper_toLower]
      simp only [normalized, List.filter_append, List.filter_cons, hblank, List.map_append]
      cases isBlank d <;> simp [hupper]

theorem Respelling.cons (c : Char) {left right : List Char} (h : Respelling left right) :
    Respelling (c :: left) (c :: right) := by
  cases h with
  | blank before after h => exact .blank (c :: before) after h
  | letter before after h => exact .letter (c :: before) after h

theorem SameSpelling.cons (c : Char) {left right : List Char} (h : SameSpelling left right) :
    SameSpelling (c :: left) (c :: right) := by
  induction h with
  | rel left right h => exact .rel _ _ (h.cons c)
  | refl raw => exact .refl _
  | symm left right _ ih => exact .symm _ _ ih
  | trans left middle right _ _ ihLeft ihRight => exact .trans _ _ _ ihLeft ihRight

theorem sameSpelling_normalized (raw : List Char) : SameSpelling (normalized raw) raw := by
  induction raw with
  | nil => exact .refl _
  | cons c raw ih =>
      cases hblank : isBlank c with
      | true =>
          have hdropped : normalized (c :: raw) = normalized raw := by simp [normalized, hblank]
          rw [hdropped]
          exact .trans _ _ _ ih (.rel _ _ (.blank [] raw (by simpa [isBlank] using hblank)))
      | false =>
          have hkept : normalized (c :: raw) = c.toUpper :: normalized raw := by
            simp [normalized, hblank]
          rw [hkept]
          exact .trans _ _ _ (SameSpelling.cons _ ih)
            (.rel _ _ (.letter [] raw (toLower_toUpper c)))

theorem sameSpelling_iff {left right : List Char} :
    SameSpelling left right ↔ normalized left = normalized right := by
  constructor
  · intro h
    induction h with
    | rel left right h => exact h.normalized_eq
    | refl raw => rfl
    | symm left right _ ih => exact ih.symm
    | trans left middle right _ _ ihLeft ihRight => exact ihLeft.trans ihRight
  · intro h
    have hleft : SameSpelling left (normalized left) := .symm _ _ (sameSpelling_normalized left)
    exact .trans _ _ _ (h ▸ hleft) (sameSpelling_normalized right)

/-! ## Normalised texts -/

def IsNormal (text : List Char) : Prop :=
  ∀ c ∈ text, isWhiteSpace c = false ∧ isControl c = false ∧ ¬ ('a' ≤ c ∧ c ≤ 'z')

theorem small_iff {c : Char} : 'a' ≤ c ∧ c ≤ 'z' ↔ 97 ≤ c.toNat ∧ c.toNat ≤ 122 := Iff.rfl

theorem isNormal_normalized (raw : List Char) : IsNormal (normalized raw) := by
  intro c hc
  obtain ⟨d, hd, rfl⟩ := List.mem_map.1 hc
  have hvisible : isBlank d.toUpper = false := by
    rw [← isBlank_toLower, toLower_toUpper, isBlank_toLower]
    simpa using (List.mem_filter.1 hd).2
  obtain ⟨hwhite, hcontrol⟩ := Bool.or_eq_false_iff.1 hvisible
  refine ⟨hwhite, hcontrol, ?_⟩
  rw [small_iff, toNat_toUpper]
  split_ifs <;> omega

theorem IsNormal.normalized_eq {text : List Char} (h : IsNormal text) : normalized text = text := by
  have hvisible : ∀ c ∈ text, (!isBlank c) = true := by
    intro c hc
    obtain ⟨hwhite, hcontrol, -⟩ := h c hc
    simp [isBlank, hwhite, hcontrol]
  have hcapital : ∀ c ∈ text, c.toUpper = c := by
    intro c hc
    rw [← Char.toNat_inj, toNat_toUpper, if_neg (mt small_iff.2 (h c hc).2.2)]
  rw [normalized, List.filter_eq_self.2 hvisible, List.map_congr_left hcapital, List.map_id']

/-- A session cannot tell spellings of a line apart, whether it shows requests or not. -/
theorem Session.execute_spellings :
    (∀ left right, SameSpelling left right →
      ∀ session : Session, session.execute left = session.execute right) ∧
    (∀ left right, SameSpelling left right ↔ normalized left = normalized right) ∧
    (normalized [] = [] ∧
      ∀ first second, normalized (first ++ second) = normalized first ++ normalized second) ∧
    (∀ raw, normalized (normalized raw) = normalized raw) ∧
    (∀ text, (∃ raw, normalized raw = text) ↔ IsNormal text) ∧
    ∀ text, IsNormal text → normalized text = text := by
  refine ⟨?_, fun _ _ => sameSpelling_iff, ⟨rfl, normalized_append⟩,
    fun raw => (isNormal_normalized raw).normalized_eq, fun text => ⟨?_, ?_⟩,
    fun _ => IsNormal.normalized_eq⟩
  · intro left right h session
    rw [execute, execute, sameSpelling_iff.1 h]
  · rintro ⟨raw, rfl⟩
    exact isNormal_normalized raw
  · intro h
    exact ⟨text, h.normalized_eq⟩

theorem Session.execute_spellings_tab :
    let left := "g1 x1\t0".toList
    let right := "G 1X10\r".toList
    let session := Session.start .standard (.unsaved .standard .empty) true
    left ≠ right ∧ SameSpelling left right ∧ session.execute left = session.execute right ∧
      IsNormal "G1X10".toList ∧ normalized left = "G1X10".toList ∧
      normalized "G1X10".toList = "G1X10".toList := by
  intro left right session
  have hleft : normalized left = "G1X10".toList := by decide
  have hspelled : SameSpelling left right := sameSpelling_iff.2 (by decide)
  have hnormal : IsNormal "G1X10".toList := hleft ▸ isNormal_normalized left
  obtain ⟨hsame, -, -, -, -, hidentity⟩ := execute_spellings
  exact ⟨by decide, hspelled, hsame left right hspelled session, hnormal, hleft,
    hidentity _ hnormal⟩

end Gcode
