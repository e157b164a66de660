import Gcode.Proofs.Double.Packing

/-!
# Rounding to doubles

A result whose exact value is `x` in units of the target exponent becomes the natural number
nearest to `x`, halves to even.  The two bits behind the mantissa tell on which side of the half
`x` lies; `Represents` says what they mean, and shifting keeps it.
-/

namespace Gcode.Double

open Float.Model Float.Model.UnpackedFloat

/-! ## The bits behind the mantissa -/

def halves (extended : ExtendedMantissa) : Nat :=
  2 * extended.mantissa + extended.roundBit.toNat

/-- The number whose first bits these are: the last bit tells whether more follow. -/
def Represents (extended : ExtendedMantissa) (x : ℚ) : Prop :=
  if extended.stickyBit then (halves extended : ℚ) < 2 * x ∧ 2 * x < halves extended + 1
  else 2 * x = halves extended

theorem represents_exact (mantissa : Nat) :
    Represents (ExtendedMantissa.ofMantissaAndAccuracy mantissa .exact) mantissa := by
  simp [Represents, halves, ExtendedMantissa.ofMantissaAndAccuracy]

theorem halves_shiftRightOne (extended : ExtendedMantissa) :
    halves extended.shiftRightOne = extended.mantissa := by
  have hdivision := Nat.div_add_mod extended.mantissa 2
  rcases Nat.mod_two_eq_zero_or_one extended.mantissa with hbit | hbit <;>
    simp [halves, ExtendedMantissa.shiftRightOne, hbit] <;> omega

theorem Represents.shiftRightOne {extended : ExtendedMantissa} {x : ℚ}
    (h : Represents extended x) : Represents extended.shiftRightOne (x / 2) := by
  have hhalf : 2 * (x / 2) = x := by ring
  rw [Represents, halves_shiftRightOne, hhalf]
  obtain ⟨mantissa, roundBit, stickyBit⟩ := extended
  cases roundBit <;> cases stickyBit <;>
    simp [Represents, halves, ExtendedMantissa.shiftRightOne] at h ⊢
  · exact h
  all_goals constructor <;> linarith

theorem Represents.shiftRight {extended : ExtendedMantissa} {x : ℚ} (h : Represents extended x)
    (count : Nat) : Represents (extended >>> count) (x / 2 ^ count) := by
  change Represents (count.repeat ExtendedMantissa.shiftRightOne extended) _
  induction count with
  | zero => simpa [Nat.repeat] using h
  | succ count ih =>
      rw [Nat.repeat, pow_succ, ← div_div]
      exact ih.shiftRightOne

theorem Represents.le_double_iff {extended : ExtendedMantissa} {x : ℚ}
    (h : Represents extended x) (bound : Nat) :
    (bound : ℚ) ≤ 2 * x ↔ bound ≤ halves extended := by
  unfold Represents at h
  split at h
  · constructor
    · intro hbound
      have : (bound : ℚ) < (halves extended + 1 : ℕ) := by
        push_cast
        linarith
      exact Nat.lt_succ_iff.1 (Nat.cast_lt.1 this)
    · intro hbound
      have : (bound : ℚ) ≤ halves extended := Nat.cast_le.2 hbound
      linarith
  · rw [h, Nat.cast_le]

theorem Represents.even_le_roundedMantissa_iff {extended : ExtendedMantissa} {x : ℚ}
    (h : Represents extended x) (bound : Nat) (even : bound % 2 = 0) :
    bound ≤ extended.roundedMantissa ↔ ((2 * bound - 1 : ℕ) : ℚ) ≤ 2 * x := by
  rw [h.le_double_iff]
  obtain ⟨mantissa, roundBit, stickyBit⟩ := extended
  cases roundBit <;> cases stickyBit <;>
    simp only [halves, ExtendedMantissa.roundedMantissa, ExtendedMantissa.accuracy,
      Accuracy.roundToNearestEven, Bool.toNat_true, Bool.toNat_false] <;>
    omega

theorem Represents.roundedMantissa_le {extended : ExtendedMantissa} {x : ℚ}
    (h : Represents extended x) (bound : Nat) (below : x < bound) :
    extended.roundedMantissa ≤ bound := by
  have hhalves : halves extended < 2 * bound := by
    rw [← Nat.not_le, ← h.le_double_iff]
    push_cast
    linarith
  obtain ⟨mantissa, roundBit, stickyBit⟩ := extended
  cases roundBit <;> cases stickyBit <;>
    simp only [halves, ExtendedMantissa.roundedMantissa, ExtendedMantissa.accuracy,
      Accuracy.roundToNearestEven, Bool.toNat_true, Bool.toNat_false] at hhalves ⊢ <;>
    omega

/-! ## The target exponent -/

theorem targetExponent_eq (mantissa : Nat) (exponent : Int) :
    Format.binary64.targetExponent (totalExponent mantissa exponent) =
      max (mantissa.log2 + exponent - 52) (-1074) := by
  have hbits : (Format.binary64.mantissaBits : Int) = 53 := rfl
  have hleast : Format.binary64.minExponent = -1074 := rfl
  rw [Format.targetExponent, totalExponent, hbits, hleast]
  congr 1
  omega

theorem two_zpow_log2_le {mantissa : Nat} (positive : 0 < mantissa) :
    (2 : ℚ) ^ (mantissa.log2 : Int) ≤ mantissa := by
  rw [zpow_natCast]
  exact_mod_cast Nat.log2_self_le (Nat.ne_of_gt positive)

theorem lt_two_zpow_log2 (mantissa : Nat) : (mantissa : ℚ) < 2 ^ ((mantissa.log2 : Int) + 1) := by
  have hbound : mantissa < 2 ^ (mantissa.log2 + 1) := Nat.lt_log2_self
  calc (mantissa : ℚ) < ((2 ^ (mantissa.log2 + 1) : Nat) : ℚ) := Nat.cast_lt.2 hbound
    _ = 2 ^ ((mantissa.log2 : Int) + 1) := by push_cast; exact (zpow_natCast ..).symm

theorem scaled_lt_of_lt {mantissa : Nat} {exponent target : Int} {x : ℚ}
    (below : x < mantissa + 1) (above : mantissa.log2 + exponent - 52 ≤ target) :
    x * 2 ^ (exponent - target) < 2 ^ 53 := by
  have hlog : (mantissa : ℚ) + 1 ≤ 2 ^ ((mantissa.log2 : Int) + 1) := by
    have hnat : mantissa + 1 ≤ 2 ^ (mantissa.log2 + 1) := Nat.lt_log2_self
    exact_mod_cast hnat
  calc x * 2 ^ (exponent - target)
      < 2 ^ ((mantissa.log2 : Int) + 1) * 2 ^ (exponent - target) :=
        mul_lt_mul_of_pos_right (below.trans_le hlog) (zpow_pos two_pos _)
    _ = 2 ^ ((mantissa.log2 : Int) + 1 + (exponent - target)) := (zpow_add₀ two_ne_zero ..).symm
    _ ≤ 2 ^ (53 : Int) := zpow_le_zpow_right₀ one_le_two (by omega)
    _ = 2 ^ 53 := zpow_natCast 2 53

theorem scaled_lt {mantissa : Nat} {exponent target : Int}
    (above : mantissa.log2 + exponent - 52 ≤ target) :
    (mantissa : ℚ) * 2 ^ (exponent - target) < 2 ^ 53 :=
  scaled_lt_of_lt (lt_add_one _) above

theorem le_scaled {mantissa : Nat} {exponent target : Int} (positive : 0 < mantissa)
    (fixed : target = mantissa.log2 + exponent - 52) :
    2 ^ 52 ≤ (mantissa : ℚ) * 2 ^ (exponent - target) :=
  calc (2 : ℚ) ^ 52 = 2 ^ (52 : Int) := (zpow_natCast 2 52).symm
    _ = 2 ^ ((mantissa.log2 : Int) + (exponent - target)) := by congr 1; omega
    _ = 2 ^ (mantissa.log2 : Int) * 2 ^ (exponent - target) := zpow_add₀ two_ne_zero ..
    _ ≤ (mantissa : ℚ) * 2 ^ (exponent - target) :=
        mul_le_mul_of_nonneg_right (two_zpow_log2_le positive) (zpow_pos two_pos _).le

/-! ## Overflow -/

/-- Half way between the greatest finite double and the number that would follow it. -/
def overflowBound : ℚ := 2 ^ 1024 - 2 ^ 970

theorem overflowBound_eq : overflowBound = (2 ^ 54 - 1) * 2 ^ (970 : Int) := by
  have hsplit : (2 : ℚ) ^ 1024 = 2 ^ 54 * 2 ^ 970 := pow_add 2 54 970
  have hunit : (2 : ℚ) ^ (970 : Int) = 2 ^ 970 := zpow_natCast 2 970
  rw [overflowBound, hsplit, hunit, sub_mul, one_mul]

theorem overflowBound_pos : 0 < overflowBound := by
  rw [overflowBound_eq]
  exact mul_pos (by norm_num) (zpow_pos two_pos _)

theorem scaled_lt_overflowBound_iff {x : ℚ} {target : Int} (small : x < 2 ^ 53)
    (large : 971 < target → 2 ^ 52 ≤ x) :
    x * 2 ^ target < overflowBound ↔ target < 971 ∨ target = 971 ∧ 2 * x < 2 ^ 54 - 1 := by
  have hunit : (0 : ℚ) < 2 ^ (970 : Int) := zpow_pos two_pos _
  have hpositive : (0 : ℚ) < 2 ^ target := zpow_pos two_pos _
  rw [overflowBound_eq]
  rcases lt_trichotomy target 971 with hlow | hequal | hhigh
  · refine iff_of_true ?_ (.inl hlow)
    have hpower : (2 : ℚ) ^ target ≤ 2 ^ (970 : Int) := zpow_le_zpow_right₀ one_le_two (by omega)
    calc x * 2 ^ target < 2 ^ 53 * 2 ^ target := mul_lt_mul_of_pos_right small hpositive
      _ ≤ 2 ^ 53 * 2 ^ (970 : Int) := mul_le_mul_of_nonneg_left hpower (by norm_num)
      _ < (2 ^ 54 - 1) * 2 ^ (970 : Int) := mul_lt_mul_of_pos_right (by norm_num) hunit
  · have hpower : (2 : ℚ) ^ target = 2 * 2 ^ (970 : Int) := by
      obtain rfl : target = 1 + 970 := hequal
      exact zpow_one_add₀ two_ne_zero 970
    rw [hpower, ← mul_assoc, mul_comm x 2, mul_lt_mul_iff_left₀ hunit]
    simp [hequal]
  · refine iff_of_false (not_lt.2 ?_) (by omega)
    have hnonneg : 0 ≤ x := le_trans (by norm_num) (large hhigh)
    have hpower : 2 ^ 2 * (2 : ℚ) ^ (970 : Int) ≤ 2 ^ target := by
      rw [← zpow_natCast, ← zpow_add₀ two_ne_zero]
      exact zpow_le_zpow_right₀ one_le_two (by push_cast; omega)
    calc ((2 : ℚ) ^ 54 - 1) * 2 ^ (970 : Int)
        ≤ 2 ^ 52 * (2 ^ 2 * 2 ^ (970 : Int)) := by
          rw [← mul_assoc]
          exact mul_le_mul_of_nonneg_right (by norm_num) hunit.le
      _ ≤ x * 2 ^ target :=
          mul_le_mul (large hhigh) hpower (mul_nonneg (by norm_num) hunit.le) hnonneg

theorem shiftToTargetExponent_represents {mantissa : Nat} {accuracy : Accuracy} {x : ℚ}
    (h : Represents (.ofMantissaAndAccuracy mantissa accuracy) x) {exponent target : Int}
    (htarget : target = max (mantissa.log2 + exponent - 52) (-1074)) (low : exponent ≤ target) :
    ∃ extended, shiftToTargetExponent .binary64 mantissa exponent accuracy = (extended, target) ∧
      Represents extended (x * 2 ^ (exponent - target)) := by
  have hshift : ((target - exponent).toNat : Int) = target - exponent :=
    Int.toNat_of_nonneg (by omega)
  have hscaled : x * 2 ^ (exponent - target) = x / 2 ^ (target - exponent).toNat := by
    rw [← zpow_natCast, hshift, div_eq_mul_inv, ← zpow_neg, neg_sub]
  simp only [shiftToTargetExponent, shiftToExponent, targetExponent_eq, ← htarget]
  refine ⟨_, by rw [hshift, add_sub_cancel], ?_⟩
  rw [hscaled]
  exact h.shiftRight _

theorem shiftToTargetExponent_first {mantissa : Nat} {exponent target : Int}
    (htarget : target = max (mantissa.log2 + exponent - 52) (-1074)) (low : exponent ≤ target) :
    ∃ extended, shiftToTargetExponent .binary64 mantissa exponent .exact = (extended, target) ∧
      Represents extended (mantissa * 2 ^ (exponent - target)) :=
  shiftToTargetExponent_represents (represents_exact mantissa) htarget low

theorem shiftToTargetExponent_of_lt {mantissa : Nat} {exponent : Int} (small : mantissa < 2 ^ 53)
    (low : -1074 ≤ exponent) :
    ∃ extended, shiftToTargetExponent .binary64 mantissa exponent .exact = (extended, exponent) ∧
      extended.mantissa = mantissa := by
  have hlog : mantissa.log2 ≤ 52 := by
    rcases Nat.eq_zero_or_pos mantissa with rfl | hpositive
    · decide
    · have := (Nat.log2_lt (by omega)).2 small
      omega
  have hshift : (max ((mantissa.log2 : Int) + exponent - 52) (-1074) - exponent).toNat = 0 := by
    omega
  simp only [shiftToTargetExponent, shiftToExponent, targetExponent_eq, hshift]
  exact ⟨_, by rw [Int.natCast_zero, Int.add_zero], rfl⟩

theorem shiftToTargetExponent_carry {exponent : Int} (low : -1074 ≤ exponent) :
    ∃ extended, shiftToTargetExponent .binary64 (2 ^ 53) exponent .exact =
        (extended, exponent + 1) ∧ extended.mantissa = 2 ^ 52 := by
  have hlog : (2 ^ 53 : Nat).log2 = 53 := by decide
  have hshift :
      (max (((2 ^ 53 : Nat).log2 : Int) + exponent - 52) (-1074) - exponent).toNat = 1 := by
    rw [hlog]
    omega
  simp only [shiftToTargetExponent, shiftToExponent, targetExponent_eq, hshift]
  exact ⟨_, rfl, rfl⟩

theorem isFinite_roundWithAccuracy_of_shift (sign : Sign) {mantissa : Nat} {exponent target : Int}
    {extended : ExtendedMantissa}
    (shifted : shiftToTargetExponent .binary64 mantissa exponent .exact = (extended, target))
    (low : -1074 ≤ target) (rounded : extended.roundedMantissa ≤ 2 ^ 53)
    (nonzero : 971 < target → 0 < extended.roundedMantissa) :
    (Float.Model.pack
        (roundWithAccuracy .binary64 sign mantissa exponent .exact)).unpack.isFinite = true ↔
      target < 971 ∨ target = 971 ∧ extended.roundedMantissa < 2 ^ 53 := by
  rw [roundWithAccuracy, shifted]
  simp only
  -- the second shift does nothing unless rounding has carried into a fifty-fourth bit
  rcases Nat.lt_or_eq_of_le rounded with hsmall | hcarry
  · obtain ⟨final, hfinal, hmantissa⟩ := shiftToTargetExponent_of_lt hsmall low
    simp only [hfinal, hmantissa]
    split_ifs with hzero
    · rw [unpack_pack (by trivial)]
      refine iff_of_true rfl ?_
      omega
    · rw [isFinite_unpack_pack]
      omega
  · obtain ⟨final, hfinal, hmantissa⟩ := shiftToTargetExponent_carry low
    simp only [hcarry, hfinal, hmantissa]
    rw [dif_neg (by decide), isFinite_unpack_pack]
    omega

/-- Rounding does not overflow exactly if the exact value is below the bound. -/
theorem isFinite_roundWithAccuracy_iff (sign : Sign) {mantissa : Nat} {exponent : Int}
    (positive : 0 < mantissa)
    (low : exponent ≤ max (mantissa.log2 + exponent - 52) (-1074)) :
    (Float.Model.pack
        (roundWithAccuracy .binary64 sign mantissa exponent .exact)).unpack.isFinite = true ↔
      (mantissa : ℚ) * 2 ^ exponent < overflowBound := by
  obtain ⟨target, htarget⟩ :
      ∃ target, target = max ((mantissa.log2 : Int) + exponent - 52) (-1074) := ⟨_, rfl⟩
  rw [← htarget] at low
  obtain ⟨extended, hshifted, hrepresents⟩ := shiftToTargetExponent_first htarget low
  have hvalue : (mantissa : ℚ) * 2 ^ exponent =
      mantissa * 2 ^ (exponent - target) * 2 ^ target := by
    rw [mul_assoc, ← zpow_add₀ two_ne_zero, sub_add_cancel]
  have hsmall : (mantissa : ℚ) * 2 ^ (exponent - target) < 2 ^ 53 := scaled_lt (by omega)
  have hlarge : 971 < target → 2 ^ 52 ≤ (mantissa : ℚ) * 2 ^ (exponent - target) := fun high =>
    le_scaled positive (by omega)
  have hrounded := hrepresents.roundedMantissa_le (2 ^ 53) (by exact_mod_cast hsmall)
  have hcarry := hrepresents.even_le_roundedMantissa_iff (2 ^ 53) (by decide)
  have hnonzero : 971 < target → 0 < extended.roundedMantissa := fun high => by
    have hreached := (hrepresents.even_le_roundedMantissa_iff (2 ^ 52) (by decide)).2
      (by have := hlarge high; push_cast; linarith)
    omega
  rw [isFinite_roundWithAccuracy_of_shift sign hshifted (by omega) hrounded hnonzero, hvalue,
    scaled_lt_overflowBound_iff hsmall hlarge, ← Nat.not_le, hcarry, not_le]
  norm_num

theorem log2_shiftLeft {mantissa : Nat} (positive : 0 < mantissa) (count : Nat) :
    (mantissa <<< count).log2 = mantissa.log2 + count := by
  have hnonzero : mantissa <<< count ≠ 0 := by
    rw [Nat.shiftLeft_eq]
    exact Nat.ne_of_gt (Nat.mul_pos positive (Nat.two_pow_pos count))
  rw [Nat.log2_eq_iff hnonzero, Nat.shiftLeft_eq, Nat.add_right_comm, Nat.pow_add,
    Nat.pow_add _ _ count]
  exact ⟨Nat.mul_le_mul_right _ (Nat.log2_self_le (Nat.ne_of_gt positive)),
    Nat.mul_lt_mul_of_pos_right Nat.lt_log2_self (Nat.two_pow_pos count)⟩

theorem decreaseExponent_value (mantissa : Nat) (exponent target : Int) :
    ((decreaseExponent mantissa exponent target).1 : ℚ) *
        2 ^ (decreaseExponent mantissa exponent target).2 = mantissa * 2 ^ exponent := by
  simp only [decreaseExponent, Nat.shiftLeft_eq]
  push_cast
  rw [mul_assoc, ← zpow_natCast, ← zpow_add₀ two_ne_zero, add_sub_cancel]

theorem isFinite_round_iff (sign : Sign) {mantissa : Nat} (positive : 0 < mantissa)
    (exponent : Int) :
    (Float.Model.pack
        (UnpackedFloat.round .binary64 sign mantissa exponent)).unpack.isFinite = true ↔
      (mantissa : ℚ) * 2 ^ exponent < overflowBound := by
  simp only [UnpackedFloat.round, targetExponent_eq]
  rw [isFinite_roundWithAccuracy_iff, decreaseExponent_value]
  · simp only [decreaseExponent, Nat.shiftLeft_eq]
    exact Nat.mul_pos positive (Nat.two_pow_pos _)
  · simp only [decreaseExponent, log2_shiftLeft positive]
    push_cast
    omega

theorem isFinite_normalize_iff (mantissa exponent : Int) :
    (Float.Model.pack
        (UnpackedFloat.normalize .binary64 mantissa exponent .positive)).unpack.isFinite = true ↔
      |(mantissa : ℚ) * 2 ^ exponent| < overflowBound := by
  have hpower : (0 : ℚ) < 2 ^ exponent := zpow_pos two_pos _
  rw [abs_mul, abs_of_pos hpower]
  rcases lt_trichotomy mantissa 0 with hnegative | rfl | hpositive
  · have hmagnitude : (((-mantissa).toNat : ℕ) : ℚ) = |(mantissa : ℚ)| := by
      rw [abs_of_neg (by exact_mod_cast hnegative)]
      exact_mod_cast Int.toNat_of_nonneg (by omega : 0 ≤ -mantissa)
    rw [normalize_of_neg _ hnegative, isFinite_round_iff _ (by omega), hmagnitude]
  · refine iff_of_true ?_ ?_
    · rw [UnpackedFloat.normalize, Int.compare_eq_eq.2 rfl, unpack_pack (by trivial)]
      rfl
    · rw [Int.cast_zero, abs_zero, zero_mul]
      exact overflowBound_pos
  · have hmagnitude : ((mantissa.toNat : ℕ) : ℚ) = |(mantissa : ℚ)| := by
      rw [abs_of_pos (by exact_mod_cast hpositive)]
      exact_mod_cast Int.toNat_of_nonneg hpositive.le
    rw [normalize_of_pos _ hpositive, isFinite_round_iff _ (by omega), hmagnitude]

/-! ## Exact values -/

def unpackedValue : UnpackedFloat → ℚ
  | .finite sign mantissa exponent _ => (sign.apply mantissa : Int) * 2 ^ exponent
  | _ => 0

def exactValue (x : Float) : ℚ := unpackedValue x.toModel.unpack

@[simp] theorem unpackedValue_zero (sign : Sign) : unpackedValue (.zero sign) = 0 := rfl

theorem abs_apply (sign : Sign) (mantissa : Nat) :
    |((sign.apply mantissa : Int) : ℚ)| = mantissa := by
  cases sign <;> simp [Sign.apply]

theorem abs_unpackedValue_lt {x : UnpackedFloat} (h : Canonical x) :
    |unpackedValue x| < overflowBound := by
  cases x with
  | finite sign mantissa exponent positive =>
      obtain ⟨hsmall, -, -, hhigh⟩ := h
      have hmantissa : (mantissa : ℚ) ≤ 2 ^ 53 - 1 := by
        have : ((mantissa + 1 : ℕ) : ℚ) ≤ ((2 ^ 53 : ℕ) : ℚ) := Nat.cast_le.2 hsmall
        push_cast at this
        linarith
      rw [unpackedValue, abs_mul, abs_apply, abs_of_pos (zpow_pos two_pos _),
        scaled_lt_overflowBound_iff (by linarith) (by omega)]
      rcases Int.lt_or_eq_of_le hhigh with hlow | hequal
      · exact .inl hlow
      · exact .inr ⟨hequal, by linarith⟩
  | notANumber | infinity | zero =>
      simp only [unpackedValue, abs_zero]
      exact overflowBound_pos

theorem isFinite_pack_iff {x : UnpackedFloat} (h : Canonical x) (finite : x.isFinite = true) :
    (Float.Model.pack x).unpack.isFinite = true ↔ |unpackedValue x| < overflowBound := by
  rw [unpack_pack h]
  exact iff_of_true finite (abs_unpackedValue_lt h)

theorem apply_decreaseExponent (sign : Sign) (mantissa : Nat) {exponent target : Int}
    (low : target ≤ exponent) :
    ((sign.apply (decreaseExponent mantissa exponent target).1 : Int) : ℚ) * 2 ^ target =
      (sign.apply mantissa : Int) * 2 ^ exponent := by
  have hvalue := decreaseExponent_value mantissa exponent target
  have hexponent : (decreaseExponent mantissa exponent target).2 = target := by
    simp only [decreaseExponent]
    omega
  rw [hexponent] at hvalue
  cases sign with
  | negative => simp [Sign.apply, hvalue]
  | positive => exact_mod_cast hvalue

theorem isFinite_unpackedAdd_iff {x y : UnpackedFloat} (hx : Canonical x) (hy : Canonical y)
    (xFinite : x.isFinite = true) (yFinite : y.isFinite = true) :
    (Float.Model.pack (UnpackedFloat.add .binary64 x y)).unpack.isFinite = true ↔
      |unpackedValue x + unpackedValue y| < overflowBound := by
  cases x with
  | notANumber | infinity => contradiction
  | zero left =>
      cases y with
      | notANumber | infinity => contradiction
      | zero right =>
          rw [unpackedValue_zero, unpackedValue_zero, add_zero]
          cases left <;> cases right <;> exact isFinite_pack_iff (by trivial) rfl
      | finite =>
          rw [unpackedValue_zero, zero_add]
          exact isFinite_pack_iff hy rfl
  | finite left first firstExponent firstPositive =>
      cases y with
      | notANumber | infinity => contradiction
      | zero right =>
          rw [unpackedValue_zero, add_zero]
          exact isFinite_pack_iff hx rfl
      | finite right second secondExponent secondPositive =>
          simp only [UnpackedFloat.add, unpackedValue]
          rw [isFinite_normalize_iff]
          push_cast
          rw [add_mul, apply_decreaseExponent _ _ (min_le_left ..),
            apply_decreaseExponent _ _ (min_le_right ..)]

theorem productExponent_le {left right : Sign} {first second : Nat}
    {firstExponent secondExponent : Int} {firstPositive : 0 < first} {secondPositive : 0 < second}
    (hx : Canonical (.finite left first firstExponent firstPositive))
    (hy : Canonical (.finite right second secondExponent secondPositive)) :
    firstExponent + secondExponent ≤
      max ((first * second).log2 + (firstExponent + secondExponent) - 52) (-1074) := by
  have hfirst : first ≤ first * second := Nat.le_mul_of_pos_right first secondPositive
  have hsecond : second ≤ first * second := Nat.le_mul_of_pos_left second firstPositive
  by_cases hlarge : 2 ^ 52 ≤ first * second
  · have := (Nat.le_log2 (by omega)).2 hlarge
    omega
  · have := hx.2.1.resolve_left (by omega)
    have := hy.2.1.resolve_left (by omega)
    omega

theorem isFinite_unpackedMul_iff {x y : UnpackedFloat} (hx : Canonical x) (hy : Canonical y)
    (xFinite : x.isFinite = true) (yFinite : y.isFinite = true) :
    (Float.Model.pack (UnpackedFloat.mul .binary64 x y)).unpack.isFinite = true ↔
      |unpackedValue x * unpackedValue y| < overflowBound := by
  cases x with
  | notANumber | infinity => contradiction
  | zero left =>
      cases y with
      | notANumber | infinity => contradiction
      | zero | finite =>
          rw [unpackedValue_zero, zero_mul]
          exact isFinite_pack_iff (by trivial) rfl
  | finite left first firstExponent firstPositive =>
      cases y with
      | notANumber | infinity => contradiction
      | zero right =>
          rw [unpackedValue_zero, mul_zero]
          exact isFinite_pack_iff (by trivial) rfl
      | finite right second secondExponent secondPositive =>
          have hvalue : |unpackedValue (.finite left first firstExponent firstPositive) *
              unpackedValue (.finite right second secondExponent secondPositive)| =
                ((first * second : ℕ) : ℚ) * 2 ^ (firstExponent + secondExponent) := by
            simp only [unpackedValue]
            rw [abs_mul, abs_mul, abs_mul, abs_apply, abs_apply, abs_of_pos (zpow_pos two_pos _),
              abs_of_pos (zpow_pos two_pos _), zpow_add₀ two_ne_zero]
            push_cast
            ring
          rw [hvalue]
          exact isFinite_roundWithAccuracy_iff _ (Nat.mul_pos firstPositive secondPositive)
            (productExponent_le hx hy)

theorem isFinite_add_iff {x y : Float} (hx : x.isFinite = true) (hy : y.isFinite = true) :
    (x + y).isFinite = true ↔ |exactValue x + exactValue y| < overflowBound :=
  isFinite_unpackedAdd_iff (canonical_unpack _) (canonical_unpack _) hx hy

theorem isFinite_mul_iff {x y : Float} (hx : x.isFinite = true) (hy : y.isFinite = true) :
    (x * y).isFinite = true ↔ |exactValue x * exactValue y| < overflowBound :=
  isFinite_unpackedMul_iff (canonical_unpack _) (canonical_unpack _) hx hy

end Gcode.Double
