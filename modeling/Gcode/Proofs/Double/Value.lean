import Gcode.Decimal.Binary
import Gcode.Proofs.Double.Kind
import Gcode.Proofs.Double.Rounding

/-!
# Values of doubles

The parts into which `floatParts` takes a double apart are those of its unpacked form, so a finite
double has the sign and the magnitude of its exact value.  Truncating it truncates that value, and
finite doubles are compared as their exact values are.
-/

namespace Gcode

open Double Float.Model Float.Model.UnpackedFloat

/-! ## Parts -/

def partsOf : UnpackedFloat → FloatParts
  | .notANumber => .nan
  | .infinity sign => .infinite (Kind.isNegative sign)
  | .zero sign => .finite (Kind.isNegative sign) ⟨0, -1074⟩
  | .finite sign mantissa exponent _ => .finite (Kind.isNegative sign) ⟨mantissa, exponent⟩

theorem toNat_unpackMantissa (bits : BitVec Format.binary64.numBits) :
    (unpackMantissa bits).toNat = bits.toNat % 2 ^ 52 := by
  simp [unpackMantissa, BitVec.extractLsb]

theorem toNat_unpackExponent (bits : BitVec Format.binary64.numBits) :
    (unpackExponent bits).toNat = bits.toNat / 2 ^ 52 % 2 ^ 11 := by
  simp [unpackExponent, BitVec.extractLsb, Nat.shiftRight_eq_div_pow]

theorem isNegative_unpackSign (bits : BitVec Format.binary64.numBits) :
    Kind.isNegative (Sign.ofBitVec (unpackSign bits)) = decide (2 ^ 63 ≤ bits.toNat) := by
  have hbits : bits.toNat < 2 ^ 64 := bits.isLt
  have hsign : (unpackSign bits).toNat = bits.toNat / 2 ^ 63 % 2 := by
    simp [unpackSign, BitVec.extractLsb, Nat.shiftRight_eq_div_pow]
  by_cases hnegative : 2 ^ 63 ≤ bits.toNat
  · have hone : unpackSign bits ≠ 0#1 := fun h => by
      have hzero := congrArg BitVec.toNat h
      rw [hsign, BitVec.toNat_ofNat] at hzero
      omega
    rw [Sign.ofBitVec, if_neg hone, decide_eq_true hnegative]
    rfl
  · have hzero : unpackSign bits = 0#1 := BitVec.eq_of_toNat_eq (by
      rw [hsign, BitVec.toNat_ofNat]
      omega)
    rw [Sign.ofBitVec, if_pos hzero, decide_eq_false hnegative]
    rfl

theorem partsOf_ofFields (sign : Sign) (exponent : BitVec 11) (mantissa : BitVec 52) :
    partsOf (ofFields sign exponent mantissa) =
      if exponent.toNat = 2047 then
        if mantissa.toNat = 0 then .infinite (Kind.isNegative sign) else .nan
      else if exponent.toNat = 0 then .finite (Kind.isNegative sign) ⟨mantissa.toNat, -1074⟩
      else .finite (Kind.isNegative sign) ⟨2 ^ 52 + mantissa.toNat, exponent.toNat - 1075⟩ := by
  have hhighest : exponent = -1#11 ↔ exponent.toNat = 2047 := BitVec.toNat_inj.symm
  have hlowest : exponent = 0#11 ↔ exponent.toNat = 0 := BitVec.toNat_inj.symm
  have hmantissa : mantissa = 0#52 ↔ mantissa.toNat = 0 := BitVec.toNat_inj.symm
  simp only [ofFields, hhighest, hlowest, hmantissa]
  split_ifs with _ _ _ hpositive
  · rfl
  · rfl
  · rfl
  · rw [partsOf, show mantissa.toNat = 0 by omega]
  · rfl

theorem floatParts_eq (x : Float) : floatParts x = partsOf x.toModel.unpack := by
  have hbits : x.toBits.toNat = x.toModel.toBits.toBitVec.toNat := rfl
  rw [Float.Model.unpack, unpack_eq_ofFields, partsOf_ofFields, isNegative_unpackSign,
    toNat_unpackMantissa, toNat_unpackExponent, floatParts, hbits]
  norm_num

/-! ## Magnitudes -/

namespace Binary

def value (magnitude : Binary) : ℚ := magnitude.significand * 2 ^ magnitude.exponent

theorem numerator_div_denominator (magnitude : Binary) :
    (magnitude.numerator : ℚ) / magnitude.denominator = magnitude.value := by
  obtain ⟨significand, exponent⟩ := magnitude
  have hpower (count : Nat) : ((Nat.pow 2 count : Nat) : ℚ) = 2 ^ (count : ℤ) := by
    rw [zpow_natCast]
    exact Nat.cast_pow 2 count
  rw [numerator, denominator, value, Nat.cast_mul, hpower, hpower, mul_div_assoc,
    ← zpow_sub₀ two_ne_zero]
  congr 2
  omega

theorem floor_eq (magnitude : Binary) : magnitude.floor = ⌊magnitude.value⌋₊ := by
  rw [floor, ← numerator_div_denominator, Nat.floor_div_eq_div]

theorem value_nonneg (magnitude : Binary) : 0 ≤ magnitude.value :=
  mul_nonneg (Nat.cast_nonneg _) (zpow_pos two_pos _).le

end Binary

def truncation (number : ℚ) : ℤ := if number < 0 then ⌈number⌉ else ⌊number⌋

theorem truncation_of_nonneg {number : ℚ} (h : 0 ≤ number) : truncation number = ⌊number⌋₊ := by
  rw [truncation, if_neg (not_lt.2 h), Int.natCast_floor_eq_floor h]

theorem truncation_neg (number : ℚ) : truncation (-number) = -truncation number := by
  unfold truncation
  rcases lt_trichotomy number 0 with hnegative | rfl | hpositive
  · rw [if_pos hnegative, if_neg (by linarith), Int.floor_neg]
  · simp
  · rw [if_neg (not_lt.2 hpositive.le), if_pos (by linarith), Int.ceil_neg]

namespace Double

theorem isFinite_iff {x : Float} :
    x.isFinite = true ↔ ∃ negative magnitude, floatParts x = .finite negative magnitude := by
  change x.toModel.unpack.isFinite = true ↔ _
  rw [floatParts_eq]
  cases x.toModel.unpack <;> simp [partsOf, UnpackedFloat.isFinite]

theorem exactValue_of_parts {x : Float} {negative : Bool} {magnitude : Binary}
    (h : floatParts x = .finite negative magnitude) :
    exactValue x = if negative then -magnitude.value else magnitude.value := by
  rw [floatParts_eq] at h
  rw [exactValue]
  cases hunpacked : x.toModel.unpack with
  | notANumber | infinity => simp [hunpacked, partsOf] at h
  | zero sign =>
      rw [hunpacked] at h
      cases h
      simp [Binary.value]
  | finite sign mantissa exponent positive =>
      rw [hunpacked] at h
      cases h
      cases sign <;> simp [unpackedValue, Binary.value, Sign.apply, Kind.isNegative]

theorem truncation_exactValue {x : Float} {negative : Bool} {magnitude : Binary}
    (h : floatParts x = .finite negative magnitude) :
    truncation (exactValue x) = if negative then -(magnitude.floor : ℤ) else magnitude.floor := by
  have hvalue := truncation_of_nonneg magnitude.value_nonneg
  rw [exactValue_of_parts h, magnitude.floor_eq, ← hvalue]
  cases negative
  · rfl
  · exact truncation_neg _

theorem truncateWithin_eq {x : Float} (finite : x.isFinite = true) (low high : ℤ) :
    truncateWithin low high x = max low (min high (truncation (exactValue x))) := by
  obtain ⟨negative, magnitude, hparts⟩ := isFinite_iff.1 finite
  rw [truncateWithin, hparts, truncation_exactValue hparts]

def isNatural (number : Nat) : FloatParts → Bool
  | .finite false magnitude => magnitude.numerator == number * magnitude.denominator
  | _ => false

theorem exactValue_of_isNatural {x : Float} {number : Nat}
    (h : isNatural number (floatParts x) = true) : exactValue x = number := by
  unfold isNatural at h
  split at h
  · next magnitude hparts =>
      have hpositive : (magnitude.denominator : ℚ) ≠ 0 :=
        Nat.cast_ne_zero.2 magnitude.denominator_pos.ne'
      rw [exactValue_of_parts hparts, if_neg Bool.false_ne_true,
        ← magnitude.numerator_div_denominator, beq_iff_eq.1 h, Nat.cast_mul,
        mul_div_cancel_right₀ _ hpositive]
  · exact absurd h Bool.false_ne_true

theorem exactValue_neg (x : Float) : exactValue (-x) = -exactValue x := by
  rw [exactValue, exactValue, unpack_neg]
  cases x.toModel.unpack <;>
    simp [UnpackedFloat.neg, unpackedValue, apply_neg]

/-! ## Comparison -/

theorem lt_of_exponent_lt {sign other : Sign} {first second : Nat}
    {firstExponent secondExponent : ℤ} {firstPositive : 0 < first} {secondPositive : 0 < second}
    (hx : Canonical (.finite sign first firstExponent firstPositive))
    (hy : Canonical (.finite other second secondExponent secondPositive))
    (lower : firstExponent < secondExponent) :
    (first : ℚ) * 2 ^ firstExponent < second * 2 ^ secondExponent := by
  obtain ⟨hsmall, -, hleast, -⟩ := hx
  have hlarge : 2 ^ 52 ≤ second := hy.2.1.resolve_right (by omega)
  calc (first : ℚ) * 2 ^ firstExponent
      < 2 ^ 53 * 2 ^ firstExponent :=
        mul_lt_mul_of_pos_right (by exact_mod_cast hsmall) (zpow_pos two_pos _)
    _ = 2 ^ 52 * 2 ^ (firstExponent + 1) := by
        rw [zpow_add_one₀ two_ne_zero]
        ring
    _ ≤ 2 ^ 52 * 2 ^ secondExponent :=
        mul_le_mul_of_nonneg_left (zpow_le_zpow_right₀ one_le_two (by omega)) (by norm_num)
    _ ≤ second * 2 ^ secondExponent :=
        mul_le_mul_of_nonneg_right (by exact_mod_cast hlarge) (zpow_pos two_pos _).le

theorem compare_magnitudes {sign other : Sign} {first second : Nat}
    {firstExponent secondExponent : ℤ} {firstPositive : 0 < first} {secondPositive : 0 < second}
    (hx : Canonical (.finite sign first firstExponent firstPositive))
    (hy : Canonical (.finite other second secondExponent secondPositive)) :
    (compare firstExponent secondExponent).then (compare first second) =
      compare ((first : ℚ) * 2 ^ firstExponent) (second * 2 ^ secondExponent) := by
  rcases lt_trichotomy firstExponent secondExponent with hlower | rfl | hhigher
  · rw [compare_lt_iff_lt.2 hlower, compare_lt_iff_lt.2 (lt_of_exponent_lt hx hy hlower)]
    rfl
  · have hpower : (0 : ℚ) < 2 ^ firstExponent := zpow_pos two_pos _
    rw [compare_eq_iff_eq.2 rfl, Ordering.eq_then]
    rcases lt_trichotomy first second with hless | rfl | hgreater
    · rw [compare_lt_iff_lt.2 hless,
        compare_lt_iff_lt.2 (mul_lt_mul_of_pos_right (Nat.cast_lt.2 hless) hpower)]
    · rw [compare_eq_iff_eq.2 rfl, compare_eq_iff_eq.2 rfl]
    · rw [compare_gt_iff_gt.2 hgreater,
        compare_gt_iff_gt.2 (mul_lt_mul_of_pos_right (Nat.cast_lt.2 hgreater) hpower)]
  · rw [compare_gt_iff_gt.2 hhigher, compare_gt_iff_gt.2 (lt_of_exponent_lt hy hx hhigher)]
    rfl

theorem swap_compare_neg (x y : ℚ) : (compare x y).swap = compare (-x) (-y) := by
  rcases lt_trichotomy x y with hless | rfl | hgreater
  · rw [compare_lt_iff_lt.2 hless, compare_gt_iff_gt.2 (neg_lt_neg hless)]
    rfl
  · rw [compare_eq_iff_eq.2 rfl, compare_eq_iff_eq.2 rfl]
    rfl
  · rw [compare_gt_iff_gt.2 hgreater, compare_lt_iff_lt.2 (neg_lt_neg hgreater)]
    rfl

theorem compare_unpacked {x y : UnpackedFloat} (hx : Canonical x) (hy : Canonical y)
    (xFinite : x.isFinite = true) (yFinite : y.isFinite = true) :
    UnpackedFloat.compare x y = some (compare (unpackedValue x) (unpackedValue y)) := by
  have hpositive {mantissa : Nat} (exponent : ℤ) (h : 0 < mantissa) :
      (0 : ℚ) < mantissa * 2 ^ exponent :=
    mul_pos (Nat.cast_pos.2 h) (zpow_pos two_pos _)
  cases x with
  | notANumber | infinity => contradiction
  | zero left =>
      cases y with
      | notANumber | infinity => contradiction
      | zero right => simp [UnpackedFloat.compare]
      | finite right second exponent positive =>
          have hsecond := hpositive exponent positive
          cases right <;>
            simp only [UnpackedFloat.compare, unpackedValue, Sign.apply, Int.cast_neg,
              Int.cast_natCast, neg_mul]
          · rw [compare_gt_iff_gt.2 (neg_lt_zero.2 hsecond)]
          · rw [compare_lt_iff_lt.2 hsecond]
  | finite left first firstExponent firstPositive =>
      cases y with
      | notANumber | infinity => contradiction
      | zero right =>
          have hfirst := hpositive firstExponent firstPositive
          cases left <;>
            simp only [UnpackedFloat.compare, unpackedValue, Sign.apply, Int.cast_neg,
              Int.cast_natCast, neg_mul]
          · rw [compare_lt_iff_lt.2 (neg_lt_zero.2 hfirst)]
          · rw [compare_gt_iff_gt.2 hfirst]
      | finite right second secondExponent secondPositive =>
          have hfirst := hpositive firstExponent firstPositive
          have hsecond := hpositive secondExponent secondPositive
          cases left <;> cases right <;>
            simp only [UnpackedFloat.compare, unpackedValue, Sign.apply, Int.cast_neg,
              Int.cast_natCast, neg_mul]
          · rw [compare_magnitudes hx hy, swap_compare_neg]
          · rw [compare_lt_iff_lt.2 (by linarith)]
          · rw [compare_gt_iff_gt.2 (by linarith)]
          · rw [compare_magnitudes hx hy]

theorem lt_iff {x y : Float} (hx : x.isFinite = true) (hy : y.isFinite = true) :
    x < y ↔ exactValue x < exactValue y := by
  change decide ((UnpackedFloat.compare x.toModel.unpack y.toModel.unpack == some .lt) = true) =
    true ↔ _
  rw [decide_eq_true_iff, compare_unpacked (canonical_unpack _) (canonical_unpack _) hx hy,
    beq_iff_eq, Option.some_inj]
  exact compare_lt_iff_lt

theorem le_iff {x y : Float} (hx : x.isFinite = true) (hy : y.isFinite = true) :
    x ≤ y ↔ exactValue x ≤ exactValue y := by
  change decide ((UnpackedFloat.compare x.toModel.unpack y.toModel.unpack).any (·.isLE) = true) =
    true ↔ _
  rw [decide_eq_true_iff, compare_unpacked (canonical_unpack _) (canonical_unpack _) hx hy]
  exact Ordering.ne_gt_iff_isLE.symm.trans compare_le_iff_le

end Double

end Gcode
