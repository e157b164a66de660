import Gcode.Decimal.Numeral
import Gcode.Proofs.Double.Value

/-!
# Natural numbers stay below what reaches them

A natural number of at most fifty-three bits is a double, so rounding a number that reaches it gives
a double that reaches it too.  This holds for products, for quotients, and for decimals as they are
read.
-/

namespace Gcode

open Double Float.Model Float.Model.UnpackedFloat

namespace Double

/-! ## Rounding -/

theorem Represents.mantissa_le {extended : ExtendedMantissa} {x : ℚ} (h : Represents extended x) :
    (extended.mantissa : ℚ) ≤ x := by
  have hhalves := (h.le_double_iff (2 * extended.mantissa)).2 (Nat.le_add_right _ _)
  push_cast at hhalves
  linarith

theorem Represents.lt_mantissa_add_one {extended : ExtendedMantissa} {x : ℚ}
    (h : Represents extended x) : x < extended.mantissa + 1 := by
  by_contra hge
  have hhalves := (h.le_double_iff (2 * (extended.mantissa + 1))).1 (by push_cast; linarith)
  have hbit := Bool.toNat_le extended.roundBit
  rw [halves] at hhalves
  omega

theorem mantissa_le_roundedMantissa (extended : ExtendedMantissa) :
    extended.mantissa ≤ extended.roundedMantissa := by
  obtain ⟨mantissa, roundBit, stickyBit⟩ := extended
  cases roundBit <;> cases stickyBit <;>
    simp [ExtendedMantissa.roundedMantissa, ExtendedMantissa.accuracy, Accuracy.roundToNearestEven]

theorem Represents.le_roundedMantissa {extended : ExtendedMantissa} {x : ℚ}
    (h : Represents extended x) {bound : Nat} (reached : (bound : ℚ) ≤ x) :
    bound ≤ extended.roundedMantissa := by
  have hbound : (bound : ℚ) < (extended.mantissa + 1 : ℕ) := by
    push_cast
    exact reached.trans_lt h.lt_mantissa_add_one
  exact (Nat.lt_succ_iff.1 (Nat.cast_lt.1 hbound)).trans (mantissa_le_roundedMantissa extended)

theorem mantissa_ofMantissaAndAccuracy (mantissa : Nat) (accuracy : Accuracy) :
    (ExtendedMantissa.ofMantissaAndAccuracy mantissa accuracy).mantissa = mantissa := by
  cases accuracy with
  | exact => rfl
  | inexact order => cases order <;> rfl

theorem unpackedValue_pack_finite {mantissa : Nat} {exponent : Int} {positive : 0 < mantissa}
    (canonical : mantissa < 2 ^ 53 ∧ (2 ^ 52 ≤ mantissa ∨ exponent = -1074) ∧ -1074 ≤ exponent)
    (finite : (Float.Model.pack
      (.finite .positive mantissa exponent positive)).unpack.isFinite = true) :
    unpackedValue (Float.Model.pack (.finite .positive mantissa exponent positive)).unpack =
      mantissa * 2 ^ exponent := by
  have hhigh := (isFinite_unpack_pack .positive positive).1 finite
  obtain ⟨hsmall, hlarge, hlow⟩ := canonical
  have hcanonical : Canonical (.finite .positive mantissa exponent positive) :=
    ⟨hsmall, hlarge, hlow, by omega⟩
  rw [unpack_pack hcanonical]
  simp [unpackedValue, Sign.apply]

theorem unpackedValue_roundWithAccuracy_of_shift {mantissa : Nat} {exponent target : Int}
    {accuracy : Accuracy} {extended : ExtendedMantissa}
    (shifted : shiftToTargetExponent .binary64 mantissa exponent accuracy = (extended, target))
    (low : -1074 ≤ target) (rounded : extended.roundedMantissa ≤ 2 ^ 53)
    (large : 2 ^ 52 ≤ extended.roundedMantissa ∨ target = -1074)
    (finite : (Float.Model.pack (roundWithAccuracy .binary64 .positive mantissa exponent
      accuracy)).unpack.isFinite = true) :
    unpackedValue (Float.Model.pack
        (roundWithAccuracy .binary64 .positive mantissa exponent accuracy)).unpack =
      extended.roundedMantissa * 2 ^ target := by
  rw [roundWithAccuracy, shifted] at finite ⊢
  simp only at finite ⊢
  rcases Nat.lt_or_eq_of_le rounded with hsmall | hcarry
  · obtain ⟨final, hfinal, hmantissa⟩ := shiftToTargetExponent_of_lt hsmall low
    simp only [hfinal, hmantissa] at finite ⊢
    split_ifs at finite ⊢ with hzero
    · rw [unpack_pack (by trivial), hzero]
      simp [unpackedValue]
    · exact unpackedValue_pack_finite ⟨hsmall, large, low⟩ finite
  · obtain ⟨final, hfinal, hmantissa⟩ := shiftToTargetExponent_carry low
    simp only [hcarry, hfinal, hmantissa] at finite ⊢
    rw [dif_neg (by decide)] at finite ⊢
    rw [unpackedValue_pack_finite ⟨by decide, .inl le_rfl, by omega⟩ finite,
      zpow_add_one₀ two_ne_zero]
    push_cast
    ring

theorem le_mul_zpow {rounded bound : Nat} {target : Int} {x : ℚ} (small : bound ≤ 2 ^ 53)
    (reached : (bound : ℚ) ≤ x * 2 ^ target)
    (rounds : ∀ number : Nat, (number : ℚ) ≤ x → number ≤ rounded)
    (large : 0 < target → 2 ^ 52 ≤ rounded) : (bound : ℚ) ≤ rounded * 2 ^ target := by
  have hpower : (0 : ℚ) < 2 ^ target := zpow_pos two_pos _
  by_cases htarget : target ≤ 0
  · have hunit : ((2 ^ (-target).toNat : ℕ) : ℚ) * 2 ^ target = 1 := by
      rw [Nat.cast_pow, Nat.cast_ofNat, ← zpow_natCast, Int.toNat_of_nonneg (by omega),
        ← zpow_add₀ two_ne_zero, neg_add_cancel, zpow_zero]
    have hbound : (bound : ℚ) = ((bound * 2 ^ (-target).toNat : ℕ) : ℚ) * 2 ^ target := by
      rw [Nat.cast_mul, mul_assoc, hunit, mul_one]
    have hrounded := rounds (bound * 2 ^ (-target).toNat)
      (le_of_mul_le_mul_right (hbound ▸ reached) hpower)
    rw [hbound]
    exact mul_le_mul_of_nonneg_right (Nat.cast_le.2 hrounded) hpower.le
  · calc (bound : ℚ) ≤ 2 ^ 52 * 2 ^ (1 : Int) := by
          rw [zpow_one, ← pow_succ]
          exact_mod_cast small
      _ ≤ rounded * 2 ^ target :=
          mul_le_mul (by exact_mod_cast large (by omega))
            (zpow_le_zpow_right₀ one_le_two (by omega)) (by positivity) (Nat.cast_nonneg _)

/-- The result as a double is not below a natural number, unless it overflows. -/
def Reaches (result : UnpackedFloat) (bound : Nat) : Prop :=
  (Float.Model.pack result).unpack.isFinite = true →
    (bound : ℚ) ≤ unpackedValue (Float.Model.pack result).unpack

theorem reaches_roundWithAccuracy {mantissa bound : Nat} {exponent : Int} {accuracy : Accuracy}
    {x : ℚ} (represents : Represents (.ofMantissaAndAccuracy mantissa accuracy) x)
    (low : exponent ≤ max (mantissa.log2 + exponent - 52) (-1074))
    (small : bound ≤ 2 ^ 53) (reached : (bound : ℚ) ≤ x * 2 ^ exponent) :
    Reaches (roundWithAccuracy .binary64 .positive mantissa exponent accuracy) bound := by
  intro finite
  obtain ⟨target, htarget⟩ :
      ∃ target, target = max ((mantissa.log2 : Int) + exponent - 52) (-1074) := ⟨_, rfl⟩
  rw [← htarget] at low
  obtain ⟨extended, hshifted, hrepresents⟩ :=
    shiftToTargetExponent_represents represents htarget low
  have hmantissa := represents.mantissa_le
  have hlt := represents.lt_mantissa_add_one
  rw [mantissa_ofMantissaAndAccuracy] at hmantissa hlt
  have hrounded := hrepresents.roundedMantissa_le (2 ^ 53)
    (by exact_mod_cast scaled_lt_of_lt hlt (by omega))
  -- above the least exponent the mantissa has all of its bits
  have hlarge : target ≠ -1074 → 2 ^ 52 ≤ extended.roundedMantissa := fun hnormal => by
    have hpositive : 0 < mantissa := Nat.pos_of_ne_zero fun hzero => by
      rw [hzero, Nat.log2_zero] at htarget
      omega
    refine hrepresents.le_roundedMantissa ?_
    push_cast
    exact (le_scaled hpositive (by omega)).trans
      (mul_le_mul_of_nonneg_right hmantissa (zpow_pos two_pos _).le)
  rw [unpackedValue_roundWithAccuracy_of_shift hshifted (by omega) hrounded
    (or_iff_not_imp_right.2 hlarge) finite]
  refine le_mul_zpow small ?_ (fun number => hrepresents.le_roundedMantissa)
    (fun hpositive => hlarge (by omega))
  rwa [mul_assoc, ← zpow_add₀ two_ne_zero, sub_add_cancel]

theorem reaches_round {mantissa bound : Nat} {exponent : Int} (positive : 0 < mantissa)
    (small : bound ≤ 2 ^ 53) (reached : (bound : ℚ) ≤ mantissa * 2 ^ exponent) :
    Reaches (UnpackedFloat.round .binary64 .positive mantissa exponent) bound := by
  simp only [UnpackedFloat.round, targetExponent_eq]
  refine reaches_roundWithAccuracy (represents_exact _) ?_ small ?_
  · simp only [decreaseExponent, log2_shiftLeft positive]
    push_cast
    omega
  · rwa [decreaseExponent_value]

/-! ## Products and quotients -/

section

variable {first second bound : Nat} {firstExponent secondExponent : Int}
  {firstPositive : 0 < first} {secondPositive : 0 < second}

theorem reaches_mul
    (low : firstExponent + secondExponent ≤
      max ((first * second).log2 + (firstExponent + secondExponent) - 52) (-1074))
    (small : bound ≤ 2 ^ 53)
    (reached : (bound : ℚ) ≤ first * 2 ^ firstExponent * (second * 2 ^ secondExponent)) :
    Reaches (UnpackedFloat.mul .binary64 (.finite .positive first firstExponent firstPositive)
      (.finite .positive second secondExponent secondPositive)) bound := by
  refine reaches_roundWithAccuracy (represents_exact (first * second)) low small ?_
  rwa [Nat.cast_mul, zpow_add₀ two_ne_zero, mul_mul_mul_comm]

theorem represents_fraction (whole : Nat) {rest denominator : Nat} (less : rest < denominator) :
    Represents (.ofMantissaAndAccuracy whole (accuracyOfFraction rest denominator))
      (whole + (rest : ℚ) / denominator) := by
  have hdenominator : (0 : ℚ) < denominator := Nat.cast_pos.2 (by omega)
  rw [accuracyOfFraction]
  split
  · next hzero =>
      rw [hzero, Nat.cast_zero, zero_div, add_zero]
      exact represents_exact whole
  · next hnonzero =>
      have hlow : 0 < (rest : ℚ) / denominator := div_pos (Nat.cast_pos.2 (by omega)) hdenominator
      have hhigh : (rest : ℚ) / denominator < 1 :=
        (div_lt_one hdenominator).2 (Nat.cast_lt.2 less)
      have htwice : 2 * ((rest : ℚ) / denominator) = (2 * rest : ℕ) / denominator := by
        push_cast
        ring
      rcases lt_trichotomy (2 * rest) denominator with hbelow | hhalf | habove
      · have hbound : 2 * ((rest : ℚ) / denominator) < 1 := by
          rw [htwice, div_lt_one hdenominator]
          exact Nat.cast_lt.2 hbelow
        rw [compare_lt_iff_lt.2 hbelow]
        simp only [Represents, halves, ExtendedMantissa.ofMantissaAndAccuracy, if_true,
          Bool.toNat_false, Nat.add_zero]
        push_cast
        constructor <;> linarith
      · have hequal : 2 * ((rest : ℚ) / denominator) = 1 := by
          rw [htwice, hhalf, div_self hdenominator.ne']
        rw [compare_eq_iff_eq.2 hhalf]
        simp only [Represents, halves, ExtendedMantissa.ofMantissaAndAccuracy, Bool.false_eq_true,
          if_false, Bool.toNat_true]
        push_cast
        linarith
      · have hbound : 1 < 2 * ((rest : ℚ) / denominator) := by
          rw [htwice, one_lt_div hdenominator]
          exact Nat.cast_lt.2 habove
        rw [compare_gt_iff_gt.2 habove]
        simp only [Represents, halves, ExtendedMantissa.ofMantissaAndAccuracy, if_true,
          Bool.toNat_true]
        push_cast
        constructor <;> linarith

theorem represents_quotient (numerator : Nat) {denominator : Nat} (positive : 0 < denominator) :
    Represents (.ofMantissaAndAccuracy (numerator / denominator)
      (accuracyOfFraction (numerator % denominator) denominator))
      ((numerator : ℚ) / denominator) := by
  have hdenominator : (denominator : ℚ) ≠ 0 := Nat.cast_ne_zero.2 positive.ne'
  have hdivision : (numerator : ℚ) / denominator =
      (numerator / denominator : ℕ) + (numerator % denominator : ℕ) / (denominator : ℚ) := by
    rw [div_eq_iff hdenominator, add_mul, div_mul_cancel₀ _ hdenominator, mul_comm]
    exact_mod_cast (Nat.div_add_mod numerator denominator).symm
  rw [hdivision]
  exact represents_fraction _ (Nat.mod_lt _ positive)

theorem le_log2_div {numerator denominator bits : Nat} (positive : 0 < denominator)
    (large : denominator.log2 + bits + 1 ≤ numerator.log2) :
    bits ≤ (numerator / denominator).log2 := by
  have hnumerator : numerator ≠ 0 := by
    rintro rfl
    rw [Nat.log2_zero] at large
    omega
  have hquotient : 2 ^ bits ≤ numerator / denominator := by
    rw [Nat.le_div_iff_mul_le positive]
    calc 2 ^ bits * denominator
        ≤ 2 ^ bits * 2 ^ (denominator.log2 + 1) := Nat.mul_le_mul_left _ Nat.lt_log2_self.le
      _ = 2 ^ (denominator.log2 + bits + 1) := by rw [← pow_add]; congr 1; omega
      _ ≤ 2 ^ numerator.log2 := Nat.pow_le_pow_right two_pos large
      _ ≤ numerator := Nat.log2_self_le hnumerator
  exact (Nat.le_log2 ((Nat.two_pow_pos bits).trans_le hquotient).ne').2 hquotient

theorem divCore_eq (first second : Nat) (firstExponent secondExponent : Int) :
    ∃ (shift : Nat) (target : Int),
      divCore .binary64 first firstExponent second secondExponent =
        ((first <<< shift) / second, target,
          accuracyOfFraction ((first <<< shift) % second) second) ∧
      shift = firstExponent - secondExponent - target ∧
      (target ≤ -1074 ∨ second.log2 + 53 ≤ first.log2 + shift) := by
  have hbits : (Format.binary64.mantissaBits : Int) = 53 := rfl
  have hleast : Format.binary64.minExponent = -1074 := rfl
  refine ⟨_, _, rfl, ?_, ?_⟩
  · rw [Int.toNat_of_nonneg]
    omega
  · simp only [Format.targetExponent, totalExponent, hbits, hleast]
    omega

theorem reaches_div (small : bound ≤ 2 ^ 53)
    (reached : (bound : ℚ) ≤ first * 2 ^ firstExponent / (second * 2 ^ secondExponent)) :
    Reaches (UnpackedFloat.div .binary64 (.finite .positive first firstExponent firstPositive)
      (.finite .positive second secondExponent secondPositive)) bound := by
  obtain ⟨shift, target, hcore, hshift, hlarge⟩ :=
    divCore_eq first second firstExponent secondExponent
  simp only [UnpackedFloat.div, hcore]
  refine reaches_roundWithAccuracy (represents_quotient _ secondPositive) ?_ small ?_
  · rcases hlarge with hleast | hlarge
    · exact hleast.trans (le_max_right _ _)
    · have hlog : 52 ≤ ((first <<< shift) / second).log2 :=
        le_log2_div secondPositive (by rw [log2_shiftLeft firstPositive]; omega)
      exact le_max_of_le_left (by omega)
  · have hexact : ((first <<< shift : ℕ) : ℚ) / second * 2 ^ target =
        first * 2 ^ firstExponent / (second * 2 ^ secondExponent) := by
      have hsecond : (second : ℚ) ≠ 0 := Nat.cast_ne_zero.2 secondPositive.ne'
      rw [Nat.shiftLeft_eq, Nat.cast_mul, Nat.cast_pow, Nat.cast_ofNat, ← zpow_natCast, hshift,
        mul_div_mul_comm, ← zpow_sub₀ two_ne_zero, mul_div_right_comm, mul_assoc,
        ← zpow_add₀ two_ne_zero, sub_add_cancel]
    rwa [hexact]

end

/-! ## Doubles -/

variable {x y : Float} {bound : Nat}

theorem exists_unpack_of_pos (positive : 0 < exactValue x) :
    ∃ mantissa exponent h, x.toModel.unpack = .finite .positive mantissa exponent h ∧
      exactValue x = mantissa * 2 ^ exponent := by
  rw [exactValue] at positive ⊢
  cases hunpacked : x.toModel.unpack with
  | notANumber | infinity | zero => simp [hunpacked, unpackedValue] at positive
  | finite sign mantissa exponent h =>
      cases sign with
      | negative =>
          have hpower : (0 : ℚ) < 2 ^ exponent := zpow_pos two_pos _
          have hmantissa : (0 : ℚ) < mantissa * 2 ^ exponent := mul_pos (Nat.cast_pos.2 h) hpower
          simp only [hunpacked, unpackedValue, Sign.apply, Int.cast_neg, Int.cast_natCast,
            neg_mul] at positive
          linarith
      | positive => exact ⟨mantissa, exponent, h, rfl, by simp [unpackedValue, Sign.apply]⟩

theorem le_exactValue_mul (hx : 0 < exactValue x) (hy : 0 < exactValue y) (small : bound ≤ 2 ^ 53)
    (reached : (bound : ℚ) ≤ exactValue x * exactValue y) (finite : (x * y).isFinite = true) :
    (bound : ℚ) ≤ exactValue (x * y) := by
  obtain ⟨first, firstExponent, firstPositive, hfirst, hxValue⟩ := exists_unpack_of_pos hx
  obtain ⟨second, secondExponent, secondPositive, hsecond, hyValue⟩ := exists_unpack_of_pos hy
  have hfirstCanonical := canonical_unpack x.toModel
  have hsecondCanonical := canonical_unpack y.toModel
  rw [hfirst] at hfirstCanonical
  rw [hsecond] at hsecondCanonical
  have hreaches :
      Reaches (UnpackedFloat.mul .binary64 x.toModel.unpack y.toModel.unpack) bound := by
    rw [hfirst, hsecond]
    exact reaches_mul (productExponent_le hfirstCanonical hsecondCanonical) small
      (by rwa [hxValue, hyValue] at reached)
  exact hreaches finite

theorem le_exactValue_div (hx : 0 < exactValue x) (hy : 0 < exactValue y) (small : bound ≤ 2 ^ 53)
    (reached : (bound : ℚ) ≤ exactValue x / exactValue y) (finite : (x / y).isFinite = true) :
    (bound : ℚ) ≤ exactValue (x / y) := by
  obtain ⟨first, firstExponent, firstPositive, hfirst, hxValue⟩ := exists_unpack_of_pos hx
  obtain ⟨second, secondExponent, secondPositive, hsecond, hyValue⟩ := exists_unpack_of_pos hy
  have hreaches :
      Reaches (UnpackedFloat.div .binary64 x.toModel.unpack y.toModel.unpack) bound := by
    rw [hfirst, hsecond]
    exact reaches_div small (by rwa [hxValue, hyValue] at reached)
  exact hreaches finite

theorem le_exactValue_ofNat {number : Nat} (positive : 0 < number) (small : number < 2 ^ 53) :
    (number : ℚ) ≤ exactValue number.toUInt64.toFloat := by
  have hnumber : number.toUInt64.toNat = number := UInt64.toNat_ofNat_of_lt' (by
    have : UInt64.size = 2 ^ 64 := rfl
    omega)
  have hround : number.toUInt64.toFloat.toModel =
      Float.Model.pack (UnpackedFloat.round .binary64 .positive number 0) := by
    change Float.Model.pack
      (UnpackedFloat.normalize .binary64 number.toUInt64.toNat 0 .positive) = _
    rw [normalize_of_pos _ (by omega), hnumber]
    rfl
  rw [exactValue, hround]
  refine reaches_round positive small.le (by simp) ?_
  rw [isFinite_round_iff _ positive, zpow_zero, mul_one, overflowBound_eq]
  calc (number : ℚ) < 2 ^ 53 * 2 ^ (0 : Int) := by
        rw [zpow_zero, mul_one]
        exact_mod_cast small
    _ ≤ (2 ^ 54 - 1) * 2 ^ (970 : Int) :=
        mul_le_mul (by norm_num) (zpow_le_zpow_right₀ one_le_two (by norm_num)) (by norm_num)
          (by norm_num)

theorem isNatural_powerOfTen : ∀ exponent : Fin Float.exactlyRepresentablePowersOfTen.size,
    isNatural (10 ^ exponent.val)
      (floatParts Float.exactlyRepresentablePowersOfTen[exponent]) = true := by
  decide +kernel

theorem exactValue_powerOfTen {exponent : Nat}
    (h : exponent < Float.exactlyRepresentablePowersOfTen.size) :
    exactValue Float.exactlyRepresentablePowersOfTen[exponent] = 10 ^ exponent := by
  have hpower := exactValue_of_isNatural (isNatural_powerOfTen ⟨exponent, h⟩)
  push_cast at hpower
  exact hpower

/-! ## Decimals -/

theorem scientific_lt_one {coefficient : Nat} {exponent : Int}
    (low : exponent < -(2 ^ 11 + coefficient.log2)) : (coefficient : ℚ) * 10 ^ exponent < 1 := by
  have hpower : (10 : ℚ) ^ exponent ≤ 2 ^ exponent := by
    obtain ⟨count, rfl⟩ : ∃ count : Nat, exponent = -count := ⟨exponent.natAbs, by omega⟩
    rw [zpow_neg, zpow_neg, zpow_natCast, zpow_natCast]
    exact inv_anti₀ (by positivity) (pow_le_pow_left₀ (by norm_num) (by norm_num) count)
  calc (coefficient : ℚ) * 10 ^ exponent
      ≤ coefficient * 2 ^ exponent := mul_le_mul_of_nonneg_left hpower (Nat.cast_nonneg _)
    _ < 2 ^ ((coefficient.log2 : Int) + 1) * 2 ^ exponent :=
        mul_lt_mul_of_pos_right (lt_two_zpow_log2 coefficient) (zpow_pos two_pos _)
    _ = 2 ^ ((coefficient.log2 : Int) + 1 + exponent) := (zpow_add₀ two_ne_zero ..).symm
    _ ≤ 2 ^ (0 : Int) := zpow_le_zpow_right₀ one_le_two (by omega)
    _ = 1 := zpow_zero 2

theorem reaches_ofScientific {coefficient : Nat} {exponent : Int} (positive : 0 < bound)
    (small : bound ≤ 2 ^ 53) (reached : (bound : ℚ) ≤ coefficient * 10 ^ exponent) :
    Reaches (UnpackedFloat.ofScientific .binary64 coefficient exponent) bound := by
  have hone : (1 : ℚ) ≤ bound := Nat.one_le_cast.2 positive
  have hcoefficient : coefficient ≠ 0 := by
    rintro rfl
    rw [Nat.cast_zero, zero_mul] at reached
    linarith
  have hlow : ¬ exponent < -(2 ^ Format.binary64.exponentBits + (coefficient.log2 : Int)) :=
    fun h => by
      have hless : (coefficient : ℚ) * 10 ^ exponent < 1 := scientific_lt_one h
      linarith
  rw [UnpackedFloat.ofScientific, dif_neg hcoefficient]
  split_ifs with hhigh hnonneg
  · intro finite
    rw [unpack_pack (by trivial)] at finite
    contradiction
  · obtain ⟨count, rfl⟩ := Int.eq_ofNat_of_zero_le hnonneg
    refine reaches_mul ?_ small ?_
    · have hbits : Format.binary64.mantissaBits = 53 := rfl
      have hproduct : 2 ^ 53 ≤ (coefficient <<< 53) * 10 ^ count := by
        rw [Nat.shiftLeft_eq, mul_right_comm]
        exact Nat.le_mul_of_pos_left _ (by positivity)
      have hlog := (Nat.le_log2 (Nat.two_pow_pos 53 |>.trans_le hproduct).ne').2 hproduct
      rw [hbits, Int.toNat_natCast]
      omega
    · have hscaled : ((coefficient <<< Format.binary64.mantissaBits : ℕ) : ℚ) *
          2 ^ (-(Format.binary64.mantissaBits : Int)) = coefficient := by
        rw [Nat.shiftLeft_eq, Nat.cast_mul, Nat.cast_pow, Nat.cast_ofNat, ← zpow_natCast, mul_assoc,
          ← zpow_add₀ two_ne_zero, add_neg_cancel, zpow_zero, mul_one]
      rw [hscaled, zpow_zero, mul_one, Int.toNat_natCast]
      push_cast
      rwa [zpow_natCast] at reached
  · obtain ⟨count, rfl⟩ : ∃ count : Nat, exponent = -count := ⟨exponent.natAbs, by omega⟩
    refine reaches_div small ?_
    rw [neg_neg, Int.toNat_natCast, zpow_zero, mul_one, mul_one]
    push_cast
    rwa [zpow_neg, zpow_natCast, ← div_eq_mul_inv] at reached

theorem le_exactValue_ofScientific {coefficient exponent : Nat} {negative : Bool}
    (positive : 0 < bound) (small : bound ≤ 2 ^ 53)
    (reached : (bound : ℚ) ≤
      coefficient * 10 ^ (if negative then -(exponent : Int) else exponent))
    (finite : (Float.ofScientific coefficient negative exponent).isFinite = true) :
    (bound : ℚ) ≤ exactValue (Float.ofScientific coefficient negative exponent) := by
  rw [Float.ofScientific] at finite ⊢
  split at finite
  · next hfast =>
      rw [dif_pos hfast]
      have hsize : exponent < Float.exactlyRepresentablePowersOfTen.size := by
        have : Float.exactlyRepresentablePowersOfTen.size = 23 := rfl
        omega
      have hpower := exactValue_powerOfTen hsize
      have hpowerPositive : 0 < exactValue Float.exactlyRepresentablePowersOfTen[exponent] := by
        rw [hpower]
        positivity
      have hcoefficient : 0 < coefficient := Nat.pos_of_ne_zero fun hzero => by
        have hone : (1 : ℚ) ≤ bound := Nat.one_le_cast.2 positive
        rw [hzero, Nat.cast_zero, zero_mul] at reached
        linarith
      have hread := le_exactValue_ofNat hcoefficient hfast.1
      have hreadPositive := (Nat.cast_pos.2 hcoefficient).trans_le hread
      cases negative with
      | true =>
          refine le_exactValue_div hreadPositive hpowerPositive small ?_ finite
          rw [hpower]
          rw [if_pos rfl, zpow_neg, zpow_natCast, ← div_eq_mul_inv] at reached
          exact reached.trans (div_le_div_of_nonneg_right hread (by positivity))
      | false =>
          refine le_exactValue_mul hreadPositive hpowerPositive small ?_ finite
          rw [hpower]
          rw [if_neg Bool.false_ne_true, zpow_natCast] at reached
          exact reached.trans (mul_le_mul_of_nonneg_right hread (by positivity))
  · next hslow =>
      rw [dif_neg hslow]
      refine reaches_ofScientific positive small ?_ finite
      cases negative with
      | true => simpa [Int.negOfNat_eq] using reached
      | false => simpa using reached

end Double

def Decimal.number (decimal : Decimal) : ℚ := decimal.coefficient * 10 ^ decimal.exponent

def Numeral.number (numeral : Numeral) : ℚ :=
  let magnitude := Decimal.number ⟨digitsValue numeral.digits, numeral.scale⟩
  if numeral.negative then -magnitude else magnitude

variable {bound : Nat}

theorem Decimal.number_lt (decimal : Decimal) :
    decimal.number < 10 ^ (decimal.leadingExponent + 1) := by
  have hdigits : decimal.coefficient < 10 ^ decimal.digits.length :=
    (Nat.length_toDigits_le_iff (by decide) Nat.length_toDigits_pos).1 le_rfl
  rw [leadingExponent, sub_add_eq_add_sub, sub_add_cancel, zpow_add₀ (by norm_num), zpow_natCast]
  exact mul_lt_mul_of_pos_right (by exact_mod_cast hdigits) (zpow_pos (by norm_num) _)

theorem Decimal.le_exactValue_toFloat {decimal : Decimal} (positive : 0 < bound)
    (small : bound ≤ 2 ^ 53) (reached : (bound : ℚ) ≤ decimal.number)
    (finite : decimal.toFloat.isFinite = true) : (bound : ℚ) ≤ exactValue decimal.toFloat := by
  have hone : (1 : ℚ) ≤ bound := Nat.one_le_cast.2 positive
  unfold toFloat at finite ⊢
  split_ifs at finite ⊢ with hzero hhigh hlow
  · rw [number, hzero, Nat.cast_zero, zero_mul] at reached
    linarith
  · exact absurd finite (by decide +kernel)
  · have hpower : (10 : ℚ) ^ (decimal.leadingExponent + 1) ≤ 10 ^ (0 : Int) :=
      zpow_le_zpow_right₀ (by norm_num) (by omega)
    have hnumber := decimal.number_lt
    rw [zpow_zero] at hpower
    linarith
  · refine le_exactValue_ofScientific positive small ?_ finite
    have hexponent : (if decide (decimal.exponent < 0) then -(decimal.exponent.natAbs : Int)
        else decimal.exponent.natAbs) = decimal.exponent := by
      simp only [decide_eq_true_eq]
      omega
    rwa [hexponent]

theorem Numeral.le_exactValue {numeral : Numeral} (positive : 0 < bound) (small : bound ≤ 2 ^ 53)
    (finite : numeral.value.isFinite = true) :
    ((bound : ℚ) ≤ numeral.number → (bound : ℚ) ≤ exactValue numeral.value) ∧
      (numeral.number ≤ -bound → exactValue numeral.value ≤ -bound) := by
  have hone : (1 : ℚ) ≤ bound := Nat.one_le_cast.2 positive
  have hmagnitude : 0 ≤ Decimal.number ⟨digitsValue numeral.digits, numeral.scale⟩ :=
    mul_nonneg (Nat.cast_nonneg _) (by positivity)
  unfold value at finite ⊢
  unfold number
  split_ifs at finite ⊢ with hnegative
  · rw [exactValue_neg]
    rw [Kind.isFinite_neg] at finite
    refine ⟨fun h => by linarith, fun h => ?_⟩
    exact neg_le_neg (Decimal.le_exactValue_toFloat positive small (neg_le_neg_iff.1 h) finite)
  · exact ⟨fun h => Decimal.le_exactValue_toFloat positive small h finite, fun h => by linarith⟩

end Gcode
