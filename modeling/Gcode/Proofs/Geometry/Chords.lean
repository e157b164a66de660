import Gcode.Proofs.Geometry.Circle

/-!
# The chords of a helix

Whatever its numbers are, a helix is cut into at least one chord and at most `maxChords`.  In exact
arithmetic there are as few as keep each chord at most as long as aimed at, measured along the
helix, unless that takes more than the limit; so aiming at longer chords never takes more of them.
-/

namespace Gcode.Helix

noncomputable def realLength (helix : Helix ℝ) : ℝ :=
  √((helix.travel * helix.radius) ^ 2 + helix.depth ^ 2)

theorem length_exact (helix : Helix ℝ) : helix.exact.length = .real helix.realLength := by
  simp only [length, exact, Exact.real_mul, Exact.scalar_abs, Exact.scalar_hypot, sq_abs,
    realLength]

section

variable (helix : Helix ℝ) {reach : ℝ} (positive : 0 < reach)

include positive

theorem chordCount_exact :
    helix.exact.chordCount (.real reach) = max 1 (min maxChords ⌈helix.realLength / reach⌉₊) := by
  have hceil (quotient : ℝ) :
      Scalar.ceilAtMost maxChords (Exact.real quotient) = some (min maxChords ⌈quotient⌉₊) := rfl
  have hreach : Scalar.less (Scalar.ofNat 0) (Exact.real reach) = true := by simpa using positive
  rw [chordCount, if_pos hreach, length_exact, Exact.real_div _ positive.ne', hceil]
  simp only [min_eq_left (min_le_left _ _)]

theorem ceil_le_iff {count : ℕ} :
    ⌈helix.realLength / reach⌉₊ ≤ count ↔ helix.realLength ≤ count * reach :=
  Nat.ceil_le.trans (div_le_iff₀ positive)

theorem chordCount_isLeast (fits : helix.realLength ≤ maxChords * reach) :
    IsLeast {count : ℕ | 1 ≤ count ∧ helix.realLength ≤ count * reach}
      (helix.exact.chordCount (.real reach)) := by
  have hceil := (helix.ceil_le_iff positive).2 fits
  rw [helix.chordCount_exact positive, min_eq_right hceil]
  constructor
  · exact ⟨le_max_left _ _, (helix.ceil_le_iff positive).1 (le_max_right _ _)⟩
  · rintro count ⟨hpositive, hcovers⟩
    exact max_le hpositive ((helix.ceil_le_iff positive).2 hcovers)

theorem chordCount_of_long (long : maxChords * reach < helix.realLength) :
    helix.exact.chordCount (.real reach) = maxChords := by
  have hceil : maxChords ≤ ⌈helix.realLength / reach⌉₊ :=
    le_of_not_ge fun hle => not_le.2 long ((helix.ceil_le_iff positive).1 hle)
  rw [helix.chordCount_exact positive, min_eq_left hceil]
  rfl

theorem chordCount_le_of_le {longer : ℝ} (longer_le : reach ≤ longer) :
    helix.exact.chordCount (.real longer) ≤ helix.exact.chordCount (.real reach) := by
  have hquotient : helix.realLength / longer ≤ helix.realLength / reach :=
    div_le_div_of_nonneg_left (Real.sqrt_nonneg _) positive longer_le
  rw [helix.chordCount_exact positive, helix.chordCount_exact (positive.trans_le longer_le)]
  exact max_le_max_left _ (min_le_min_left _ (Nat.ceil_le_ceil hquotient))

end

/-- Doubles of any kind give one chord at least and never more than the limit, and as many points.
In exact arithmetic the chords are the fewest that cover the helix, or as many as there may be, and
no more if longer ones are aimed at. -/
theorem chordCount_bounded_and_sufficient :
    (∀ (helix : Helix Float) (reach : Float) (start : Point Float),
      1 ≤ helix.chordCount reach ∧ helix.chordCount reach ≤ maxChords ∧
        (helix.chordEnds start reach).length = helix.chordCount reach) ∧
    ∀ (helix : Helix ℝ) (reach : ℝ), 0 < reach →
      let length := √((helix.travel * helix.radius) ^ 2 + helix.depth ^ 2)
      let count := helix.exact.chordCount (.real reach)
      (length ≤ maxChords * reach →
        IsLeast {n : ℕ | 1 ≤ n ∧ length ≤ n * reach} count ∧ length / count ≤ reach) ∧
      (maxChords * reach < length → count = maxChords) ∧
      ∀ longer, reach ≤ longer → helix.exact.chordCount (.real longer) ≤ count := by
  constructor
  · intro helix reach start
    exact ⟨helix.chordCount_pos reach, helix.chordCount_le reach,
      helix.length_chordEnds start reach⟩
  · intro helix reach positive length count
    refine ⟨fun fits => ?_, helix.chordCount_of_long positive,
      fun longer => helix.chordCount_le_of_le positive⟩
    have hleast := helix.chordCount_isLeast positive fits
    have hcount : (0 : ℝ) < count := Nat.cast_pos.2 (helix.exact.chordCount_pos _)
    exact ⟨hleast, (div_le_iff₀' hcount).2 hleast.1.2⟩

theorem chordCount_bounded_and_sufficient_halfTurn :
    let helix : Helix ℝ := ⟨-(Real.pi / 2), Real.pi, 5, 0, .xy⟩
    (0 : ℝ) < 1 / 10 ∧ √((Real.pi * 5) ^ 2 + 0 ^ 2) ≤ maxChords * (1 / 10) ∧
      helix.exact.chordCount (.real (1 / 10)) = 158 ∧
      helix.exact.chordCount (.real (1 / 5)) ≤ 158 := by
  intro helix
  have hpositive : (0 : ℝ) < 1 / 10 := by norm_num
  have hlength : √((Real.pi * 5) ^ 2 + 0 ^ 2) = Real.pi * 5 := by
    rw [zero_pow two_ne_zero, add_zero, Real.sqrt_sq (by positivity)]
  have hlow := Real.pi_gt_d4
  have hhigh := Real.pi_lt_d4
  have hfits : √((Real.pi * 5) ^ 2 + 0 ^ 2) ≤ maxChords * (1 / 10) := by
    rw [hlength]
    norm_num [maxChords]
    linarith
  obtain ⟨hleast, -, hlonger⟩ := chordCount_bounded_and_sufficient.2 helix (1 / 10) hpositive
  obtain ⟨⟨⟨-, hcovers⟩, hfewest⟩, -⟩ := hleast hfits
  have hcount : helix.exact.chordCount (.real (1 / 10)) = 158 := by
    refine le_antisymm (hfewest ⟨by norm_num, ?_⟩) ?_
    · change √((Real.pi * 5) ^ 2 + 0 ^ 2) ≤ _
      rw [hlength]
      norm_num
      linarith
    · by_contra hless
      have hcast : (helix.exact.chordCount (.real (1 / 10)) : ℝ) ≤ 157 := by
        exact_mod_cast Nat.lt_succ_iff.1 (not_le.1 hless)
      change √((Real.pi * 5) ^ 2 + 0 ^ 2) ≤ _ at hcovers
      rw [hlength] at hcovers
      linarith
  exact ⟨hpositive, hfits, hcount, hcount ▸ hlonger (1 / 5) (by norm_num)⟩

end Gcode.Helix
