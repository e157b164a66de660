import Gcode.Proofs.Double.Reading

/-!
# Shortest digits

The shortest digits of a double are those of a number that is closer to it than to any other double.
Some grid among those that are searched has such a number, as the last one is finer than half the
distance to the next double; and what is closest to one double is not closest to another.  So no two
doubles have the same shortest digits.
-/

namespace Gcode

open Double Float.Model Float.Model.UnpackedFloat

/-! ## Magnitudes of doubles -/

/-- The magnitudes that `floatParts` finds: fifty-three bits, of which the first is missing only at
the lowest exponent. -/
structure Binary.IsDouble (magnitude : Binary) : Prop where
  small : magnitude.significand < 2 ^ 53
  normal : 2 ^ 52 ≤ magnitude.significand ∨ magnitude.exponent = -1074
  low : -1074 ≤ magnitude.exponent
  high : magnitude.exponent ≤ 971

theorem isDouble_of_floatParts {x : Float} {negative : Bool} {magnitude : Binary}
    (h : floatParts x = .finite negative magnitude) : magnitude.IsDouble := by
  have hcanonical := canonical_unpack x.toModel
  rw [floatParts_eq] at h
  cases hunpacked : x.toModel.unpack with
  | notANumber | infinity => simp [hunpacked, partsOf] at h
  | zero sign =>
      rw [hunpacked] at h
      cases h
      exact ⟨by norm_num, .inr rfl, by norm_num, by norm_num⟩
  | finite sign mantissa exponent positive =>
      rw [hunpacked] at h hcanonical
      cases h
      obtain ⟨hsmall, hnormal, hlow, hhigh⟩ := hcanonical
      exact ⟨hsmall, hnormal, hlow, hhigh⟩

theorem toNat_toBits {x : Float} {negative : Bool} {magnitude : Binary}
    (h : floatParts x = .finite negative magnitude) :
    x.toBits.toNat = (if negative then 0x8000000000000000 else 0) +
      (magnitude.exponent + 1074).toNat * 0x10000000000000 + magnitude.significand := by
  have hbits := x.toBits.toNat_lt
  simp only [floatParts] at h
  split_ifs at h <;> obtain ⟨rfl, rfl⟩ := FloatParts.finite.inj h <;> simp only [decide_eq_true_eq]
  all_goals split <;> omega

theorem eq_of_floatParts_eq {x y : Float} {negative : Bool} {magnitude : Binary}
    (hx : floatParts x = .finite negative magnitude)
    (hy : floatParts y = .finite negative magnitude) : x = y := by
  have hbits : x.toBits = y.toBits :=
    UInt64.toNat_inj.1 ((toNat_toBits hx).trans (toNat_toBits hy).symm)
  rw [← Float.ofBits_toBits x, hbits, Float.ofBits_toBits]

namespace Decimal

/-! ## Points of a grid -/

/-- Whether a number is among those that the interval stands for, in units of `2 ^ power`. -/
def RoundingInterval.Holds (interval : RoundingInterval) (power : ℤ) (number : ℚ) : Prop :=
  if interval.closed then
    interval.low * 2 ^ power ≤ number ∧ number ≤ interval.high * 2 ^ power
  else interval.low * 2 ^ power < number ∧ number < interval.high * 2 ^ power

theorem pow_toNat {base : ℚ} (hbase : base ≠ 0) (n : ℤ) :
    base ^ n.toNat = base ^ n * base ^ (-n).toNat := by
  rw [← zpow_natCast, ← zpow_natCast, ← zpow_add₀ hbase]
  congr 1
  omega

abbrev gridScale (power exponent : ℤ) : Nat :=
  scaledNumerator (Nat.pow 2 power.toNat) exponent

abbrev gridDenominator (power exponent : ℤ) : Nat :=
  scaledDenominator (Nat.pow 2 (-power).toNat) exponent

theorem gridScale_mul (power exponent : ℤ) :
    (gridScale power exponent : ℚ) * 10 ^ exponent =
      gridDenominator power exponent * 2 ^ power := by
  have hten := pow_toNat (show (10 : ℚ) ≠ 0 by norm_num) exponent
  have htwo := pow_toNat (show (2 : ℚ) ≠ 0 by norm_num) power
  simp only [scaledNumerator, scaledDenominator, Nat.pow_eq, Nat.cast_mul, Nat.cast_pow,
    Nat.cast_ofNat]
  rw [hten, htwo]
  ring

variable {interval : RoundingInterval} {power exponent : ℤ} {tie : Tie}

theorem gridDenominator_pos (power exponent : ℤ) :
    (0 : ℚ) < gridDenominator power exponent := by
  simp only [scaledDenominator, Nat.pow_eq]
  positivity

theorem contains_iff (point : Nat) :
    interval.contains (gridScale power exponent) (gridDenominator power exponent) point = true ↔
      interval.Holds power (number ⟨point, exponent⟩) := by
  have hten : (0 : ℚ) < 10 ^ exponent := by positivity
  have hscale := gridScale_mul power exponent
  have hdenominator := gridDenominator_pos power exponent
  generalize gridScale power exponent = scale at *
  generalize gridDenominator power exponent = denominator at *
  have hfactor : (0 : ℚ) < denominator / 10 ^ exponent := div_pos hdenominator hten
  have hend (bound : Nat) : ((bound * scale : Nat) : ℚ) =
      denominator / 10 ^ exponent * (bound * 2 ^ power) := by
    field_simp
    push_cast
    linear_combination bound * hscale
  have hpoint : ((point * denominator : Nat) : ℚ) =
      denominator / 10 ^ exponent * number ⟨point, exponent⟩ := by
    rw [number]
    field_simp
    push_cast
    ring
  unfold RoundingInterval.contains RoundingInterval.Holds
  split <;> simp only [Bool.and_eq_true, decide_eq_true_eq, ← @Nat.cast_le ℚ, ← @Nat.cast_lt ℚ,
    hend, hpoint, mul_le_mul_iff_right₀ hfactor, mul_lt_mul_iff_right₀ hfactor]

theorem gridPoint_holds {coefficient : Nat}
    (h : gridPoint tie interval (gridScale power exponent) (gridDenominator power exponent) =
      some coefficient) :
    interval.Holds power (number ⟨coefficient, exponent⟩) := by
  rw [← contains_iff]
  simp only [gridPoint] at h
  split_ifs at h with hboth hbelow habove
  · obtain ⟨hbelow, habove⟩ := Bool.and_eq_true_iff.1 hboth
    obtain rfl := Option.some.inj h
    rcases roundQuotient_eq_or tie _ _ with hround | hround <;> rw [hround] <;> assumption
  · exact Option.some.inj h ▸ hbelow
  · exact Option.some.inj h ▸ habove

theorem contains_next {scale denominator : Nat} (hpositive : 0 < denominator)
    (hlow : interval.low ≤ interval.centre) (hhigh : interval.centre + 2 ≤ interval.high)
    (hfine : denominator < 2 * scale) :
    interval.contains scale denominator (interval.centre * scale / denominator + 1) = true := by
  have hbelow : interval.centre * scale / denominator * denominator ≤ interval.centre * scale :=
    Nat.div_mul_le_self _ _
  have habove : interval.centre * scale <
      (interval.centre * scale / denominator + 1) * denominator :=
    (Nat.lt_mul_div_succ _ hpositive).trans_eq (Nat.mul_comm _ _)
  have hstart : interval.low * scale ≤ interval.centre * scale := Nat.mul_le_mul_right _ hlow
  have hend : interval.centre * scale + 2 * scale ≤ interval.high * scale := by
    rw [← Nat.add_mul]
    exact Nat.mul_le_mul_right _ hhigh
  rw [Nat.add_mul, Nat.one_mul] at habove
  unfold RoundingInterval.contains
  simp only [Nat.add_mul, Nat.one_mul]
  split <;> simp only [Bool.and_eq_true, decide_eq_true_eq] <;> omega

theorem gridPoint_ne_none (hlow : interval.low ≤ interval.centre)
    (hhigh : interval.centre + 2 ≤ interval.high)
    (hfine : (10 : ℚ) ^ exponent < 2 * 2 ^ power) :
    gridPoint tie interval (gridScale power exponent) (gridDenominator power exponent) ≠
      none := by
  have hscale := gridScale_mul power exponent
  have hdenominator := gridDenominator_pos power exponent
  generalize gridScale power exponent = scale at *
  generalize gridDenominator power exponent = denominator at *
  have hten : (0 : ℚ) < 10 ^ exponent := by positivity
  have hfiner : denominator < 2 * scale := by
    have hproduct : (denominator : ℚ) * 10 ^ exponent < (2 * scale : Nat) * 10 ^ exponent := by
      calc (denominator : ℚ) * 10 ^ exponent
        _ < denominator * (2 * 2 ^ power) := mul_lt_mul_of_pos_left hfine hdenominator
        _ = (2 * scale : Nat) * 10 ^ exponent := by push_cast; linear_combination -2 * hscale
    exact_mod_cast lt_of_mul_lt_mul_right hproduct hten.le
  have hnext := contains_next (by exact_mod_cast hdenominator) hlow hhigh hfiner
  simp only [gridPoint, hnext, Bool.and_true, if_true]
  split <;> simp

theorem searchGrids_holds (hlow : interval.low ≤ interval.centre)
    (hhigh : interval.centre + 2 ≤ interval.high) (grids : Nat) {exponent : ℤ}
    (hfine : (10 : ℚ) ^ (exponent - grids) < 2 * 2 ^ power) :
    interval.Holds power (searchGrids tie interval power (grids + 1) exponent).number := by
  rw [searchGrids]
  split
  · next coefficient hpoint => exact gridPoint_holds hpoint
  · next hnone =>
      cases grids with
      | zero =>
          rw [Nat.cast_zero, sub_zero] at hfine
          exact absurd hnone (gridPoint_ne_none hlow hhigh hfine)
      | succ grids =>
          refine searchGrids_holds hlow hhigh grids ?_
          rwa [Nat.cast_succ, sub_add_eq_sub_sub_swap] at hfine

/-! ## Enough grids -/

theorem ten_zpow_lt_two_zpow {n k : ℤ} (hpositive : 0 ≤ n → 10 * n < 3 * k)
    (hnegative : n ≤ 0 → 93 * n < 28 * k) : (10 : ℚ) ^ n < 2 ^ k := by
  rcases le_total 0 n with hn | hn
  · have hcube : ((10 : ℚ) ^ n) ^ 3 < (2 ^ k) ^ 3 := by
      calc ((10 : ℚ) ^ n) ^ 3
        _ = (10 ^ 3) ^ n := by rw [← zpow_natCast, ← zpow_mul, ← zpow_natCast, ← zpow_mul, mul_comm]
        _ ≤ (2 ^ 10) ^ n := zpow_le_zpow_left₀ hn (by norm_num) (by norm_num)
        _ = 2 ^ (10 * n) := by rw [← zpow_natCast, ← zpow_mul]; rfl
        _ < 2 ^ (3 * k) := zpow_lt_zpow_right₀ (by norm_num) (hpositive hn)
        _ = (2 ^ k) ^ 3 := by rw [← zpow_natCast, ← zpow_mul, mul_comm]; rfl
    exact lt_of_pow_lt_pow_left₀ 3 (by positivity) hcube
  · have hpower : ((10 : ℚ) ^ n) ^ 28 < (2 ^ k) ^ 28 := by
      obtain ⟨m, rfl⟩ : ∃ m : ℤ, n = -m := ⟨-n, by ring⟩
      have hm : 0 ≤ m := by omega
      calc ((10 : ℚ) ^ (-m)) ^ 28
        _ = ((10 ^ 28) ^ m)⁻¹ := by
          rw [← zpow_natCast, ← zpow_mul, mul_comm, zpow_mul, zpow_neg, zpow_natCast]
        _ ≤ ((2 ^ 93) ^ m)⁻¹ :=
          inv_anti₀ (by positivity) (zpow_le_zpow_left₀ hm (by norm_num) (by norm_num))
        _ = 2 ^ (93 * -m) := by rw [← zpow_natCast, ← zpow_mul, mul_neg, zpow_neg]; rfl
        _ < 2 ^ (28 * k) := zpow_lt_zpow_right₀ (by norm_num) (hnegative hn)
        _ = (2 ^ k) ^ 28 := by rw [← zpow_natCast, ← zpow_mul, mul_comm]; rfl
    exact lt_of_pow_lt_pow_left₀ 28 (by positivity) hpower

theorem last_grid_fine {magnitude : Binary} (h : magnitude.IsDouble) :
    (10 : ℚ) ^ (exponentAbove magnitude.bitLength - 23) < 2 ^ (magnitude.exponent - 1) := by
  obtain ⟨hsmall, -, hlow, hhigh⟩ := h
  have hlog : magnitude.significand.log2 ≤ 52 := by
    by_cases hzero : magnitude.significand = 0
    · rw [hzero]
      decide
    · exact Nat.le_of_lt_succ ((Nat.log2_lt hzero).2 hsmall)
  unfold exponentAbove Binary.bitLength
  exact ten_zpow_lt_two_zpow (by omega) (by omega)

theorem shortest_holds {magnitude : Binary} (h : magnitude.IsDouble)
    (hne : magnitude.significand ≠ 0) :
    (RoundingInterval.around magnitude).Holds (magnitude.exponent - 2)
      (shortest tie magnitude).number := by
  rw [shortest, if_neg hne]
  refine searchGrids_holds ?_ ?_ 23 ?_
  · simp only [RoundingInterval.around]
    split <;> omega
  · exact le_rfl
  · calc (10 : ℚ) ^ (exponentAbove magnitude.bitLength - 23)
      _ < 2 ^ (magnitude.exponent - 1) := last_grid_fine h
      _ = 2 * 2 ^ (magnitude.exponent - 2) := by
        rw [← zpow_one_add₀ two_ne_zero]
        congr 1
        ring

/-! ## Intervals apart -/

theorem RoundingInterval.Holds.bounds {number : ℚ} (h : interval.Holds power number) :
    interval.low * 2 ^ power ≤ number ∧ number ≤ interval.high * 2 ^ power := by
  unfold Holds at h
  split at h
  · exact h
  · exact ⟨h.1.le, h.2.le⟩

theorem RoundingInterval.Holds.bounds_of_open {number : ℚ} (h : interval.Holds power number)
    (hopen : interval.closed = false) :
    interval.low * 2 ^ power < number ∧ number < interval.high * 2 ^ power := by
  rwa [Holds, hopen, if_neg (by decide)] at h

theorem RoundingInterval.Holds.not_holds {first second : RoundingInterval} {low high : ℤ}
    {number : ℚ} (hfirst : first.Holds low number) (factor : Nat)
    (hunits : (factor : ℚ) * 2 ^ low ≤ 2 ^ high) (hends : first.high ≤ factor * second.low)
    (htouch : first.high = factor * second.low →
      first.closed = false ∨ second.closed = false) : ¬ second.Holds high number := by
  intro hsecond
  have hunit : (0 : ℚ) < 2 ^ low := by positivity
  have hcast : (0 : ℚ) ≤ second.low := Nat.cast_nonneg _
  have hscaled : ((factor * second.low : Nat) : ℚ) * 2 ^ low ≤ second.low * 2 ^ high := by
    have := mul_le_mul_of_nonneg_left hunits hcast
    push_cast
    linarith
  have hlow := hsecond.bounds.1
  have hhigh := hfirst.bounds.2
  rcases hends.eq_or_lt with hequal | hgap
  · have hmeet : (first.high : ℚ) * 2 ^ low ≤ second.low * 2 ^ high := hequal ▸ hscaled
    rcases htouch hequal with hopen | hopen
    · linarith [(hfirst.bounds_of_open hopen).2]
    · linarith [(hsecond.bounds_of_open hopen).1]
  · have happart : (first.high : ℚ) * 2 ^ low < (factor * second.low : Nat) * 2 ^ low :=
      mul_lt_mul_of_pos_right (Nat.cast_lt.2 hgap) hunit
    linarith

theorem not_holds_of_less {first second : Binary} (hfirst : first.IsDouble)
    (hsecond : second.IsDouble)
    (hless : first.exponent < second.exponent ∨
      first.exponent = second.exponent ∧ first.significand < second.significand) {number : ℚ}
    (hholds : (RoundingInterval.around first).Holds (first.exponent - 2) number) :
    ¬ (RoundingInterval.around second).Holds (second.exponent - 2) number := by
  obtain ⟨hsmall, hnormal, hlow, -⟩ := hfirst
  obtain ⟨-, hnormal', -, -⟩ := hsecond
  rcases hless with hexponent | ⟨hexponent, hsignificand⟩
  · refine hholds.not_holds 2 ?_ ?_ ?_
    · rw [Nat.cast_ofNat, ← zpow_one_add₀ two_ne_zero]
      exact zpow_le_zpow_right₀ (by norm_num) (by omega)
    all_goals
      simp only [RoundingInterval.around]
      split <;> simp_all <;> omega
  · refine hholds.not_holds 1 (by rw [Nat.cast_one, one_mul, hexponent]) ?_ ?_
    all_goals
      simp only [RoundingInterval.around]
      split <;> simp_all <;> omega

theorem shortest_zero {magnitude : Binary} (h : magnitude.significand = 0) :
    (shortest tie magnitude).number = 0 := by
  rw [shortest, if_pos h, number, Nat.cast_zero, zero_mul]

theorem shortest_pos {magnitude : Binary} (h : magnitude.IsDouble)
    (hne : magnitude.significand ≠ 0) : 0 < (shortest tie magnitude).number := by
  have hlow : 0 < (RoundingInterval.around magnitude).low := by
    simp only [RoundingInterval.around]
    split <;> omega
  refine lt_of_lt_of_le ?_ (shortest_holds h hne).bounds.1
  positivity

/-- The shortest digits tell a double from all others. -/
theorem shortest_number_injective {first second : Binary} (hfirst : first.IsDouble)
    (hsecond : second.IsDouble)
    (hsame : (shortest tie first).number = (shortest tie second).number) : first = second := by
  suffices hparts : first.exponent = second.exponent ∧ first.significand = second.significand by
    cases first
    cases second
    simp_all
  by_cases hzero : first.significand = 0 <;> by_cases hzero' : second.significand = 0
  · have hexponent := hfirst.normal.resolve_left (by omega)
    have hexponent' := hsecond.normal.resolve_left (by omega)
    omega
  · rw [shortest_zero hzero] at hsame
    exact absurd hsame (shortest_pos hsecond hzero').ne
  · rw [shortest_zero hzero'] at hsame
    exact absurd hsame (shortest_pos hfirst hzero).ne'
  · have hholds := @shortest_holds tie _ hfirst hzero
    have hholds' := @shortest_holds tie _ hsecond hzero'
    rw [← hsame] at hholds'
    -- the one number would be closest to two doubles
    have hless := mt (not_holds_of_less hfirst hsecond · hholds) (not_not_intro hholds')
    have hgreater := mt (not_holds_of_less hsecond hfirst · hholds') (not_not_intro hholds)
    omega

end Decimal

end Gcode
