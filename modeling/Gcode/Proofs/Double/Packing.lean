import Mathlib

/-!
# Packed doubles

Arithmetic takes a double apart, computes, and packs the result into sixty-four bits again.  A
finite number comes out of the bits as a mantissa below `2 ^ 53` and an exponent, and the mantissa
is below `2 ^ 52` only at the lowest exponent.  Packing such a number loses nothing, and packing any
other finite number overflows exactly from exponent 972 on.
-/

namespace Gcode.Double

open Float.Model Float.Model.UnpackedFloat

/-! ## Fields -/

def ofFields (sign : Sign) (exponent : BitVec 11) (mantissa : BitVec 52) : UnpackedFloat :=
  if exponent = -1#11 then
    if mantissa = 0#52 then .infinity sign else .notANumber
  else if exponent = 0#11 then
    if positive : 0 < mantissa.toNat then .finite sign mantissa.toNat (-1074) positive
    else .zero sign
  else .finite sign (2 ^ 52 + mantissa.toNat) (exponent.toNat - 1075) (by omega)

theorem toNat_implicitBit (mantissa : BitVec 52) :
    (1#1 ++ mantissa).toNat = 2 ^ 52 + mantissa.toNat := by
  have hbit : (1#1).toNat <<< 52 = 2 ^ 52 := rfl
  rw [BitVec.toNat_append, hbit, Nat.or_comm, Nat.or_two_pow_eq_add_of_lt mantissa.isLt,
    Nat.add_comm]

theorem unpack_eq_ofFields (bits : BitVec Format.binary64.numBits) :
    UnpackedFloat.unpack .binary64 bits =
      ofFields (Sign.ofBitVec (unpackSign bits)) (unpackExponent bits) (unpackMantissa bits) := by
  have hbias : (Format.binary64.exponentBias : Int) + (52 : Nat) = 1075 := rfl
  rw [UnpackedFloat.unpack, ofFields]
  simp only [hbias, toNat_implicitBit]
  by_cases hhighest : unpackExponent bits = -1#11
  · simp only [if_pos hhighest]
  · simp only [if_neg hhighest]
    by_cases hlowest : unpackExponent bits = 0#11
    · simp only [if_pos hlowest]
      by_cases hzero : unpackMantissa bits = 0#52
      · simp [hzero]
      · rw [dif_neg hzero, dif_pos (by rwa [BitVec.toNat_pos, BitVec.pos_iff_ne_zero])]
        simp only [hlowest]
        rfl
    · simp only [if_neg hlowest]

theorem unpackSign_packComponents (sign : Sign) (exponent : BitVec 11) (mantissa : BitVec 52) :
    Sign.ofBitVec (unpackSign (packComponents .binary64 sign exponent mantissa)) = sign := by
  simp only [unpackSign, packComponents, BitVec.extractLsb]
  rw [BitVec.extractLsb'_append_eq_of_le (by omega), BitVec.extractLsb'_append_eq_of_le (by omega)]
  cases sign <;> rfl

theorem unpack_packComponents (sign : Sign) (exponent : BitVec 11) (mantissa : BitVec 52) :
    UnpackedFloat.unpack .binary64 (packComponents .binary64 sign exponent mantissa) =
      ofFields sign exponent mantissa := by
  rw [unpack_eq_ofFields, unpackSign_packComponents, unpackExponent_packComponents,
    unpackMantissa_packComponents]

/-! ## Canonical numbers -/

/-- The finite numbers in the form in which they come out of their bits. -/
def Canonical : UnpackedFloat → Prop
  | .finite _ mantissa exponent _ =>
    mantissa < 2 ^ 53 ∧ (2 ^ 52 ≤ mantissa ∨ exponent = -1074) ∧ -1074 ≤ exponent ∧ exponent ≤ 971
  | _ => True

theorem canonical_ofFields (sign : Sign) (exponent : BitVec 11) (mantissa : BitVec 52) :
    Canonical (ofFields sign exponent mantissa) := by
  have hexponent := exponent.isLt
  have hmantissa := mantissa.isLt
  unfold ofFields
  split_ifs with hhighest _ hlowest
  · trivial
  · trivial
  · exact ⟨by omega, .inr rfl, by omega, by omega⟩
  · trivial
  · have hlow : 0 < exponent.toNat := by rwa [BitVec.toNat_pos, BitVec.pos_iff_ne_zero]
    have hhigh : exponent.toNat ≠ 2047 := fun h => hhighest (BitVec.eq_of_toNat_eq h)
    exact ⟨by omega, .inl (by omega), by omega, by omega⟩

theorem canonical_unpack (value : Float.Model) : Canonical value.unpack := by
  rw [Float.Model.unpack, unpack_eq_ofFields]
  exact canonical_ofFields ..

theorem exponentField (exponent : Int) :
    (exponent + Format.binary64.exponentBias + (52 : Nat)).toNat = (exponent + 1075).toNat := by
  rw [Int.add_assoc]
  rfl

theorem exponentField_ne_highest {exponent : Int} (h : exponent < 972) :
    BitVec.ofNat 11 (exponent + 1075).toNat ≠ -1#11 := by
  intro hhighest
  have hvalue : (exponent + 1075).toNat % 2 ^ 11 = (-1#11).toNat :=
    congrArg BitVec.toNat hhighest
  have : (-1#11).toNat = 2047 := by decide
  omega

theorem unpack_pack_of_overflow (sign : Sign) {mantissa : Nat} {exponent : Int}
    (positive : 0 < mantissa) (high : 972 ≤ exponent) :
    (Float.Model.pack (.finite sign mantissa exponent positive)).unpack = .infinity sign := by
  simp only [Float.Model.unpack, Float.Model.pack, UnpackedFloat.pack, exponentField]
  rw [if_pos (by omega), packedInfinity, unpack_packComponents]
  rfl

theorem unpack_pack_of_lt (sign : Sign) {mantissa : Nat} {exponent : Int}
    (positive : 0 < mantissa) (high : exponent < 972) :
    (Float.Model.pack (.finite sign mantissa exponent positive)).unpack =
      if mantissa.log2 = 52 then
        ofFields sign (BitVec.ofNat 11 (exponent + 1075).toNat) (BitVec.ofNat 52 mantissa)
      else ofFields sign 0#11 (BitVec.ofNat 52 mantissa) := by
  simp only [Float.Model.unpack, Float.Model.pack, UnpackedFloat.pack, exponentField]
  rw [if_neg (by omega)]
  have hbits : mantissa.log2 + 1 = Format.binary64.mantissaBits ↔ mantissa.log2 = 52 :=
    Nat.succ_inj
  simp only [hbits]
  split_ifs <;> exact unpack_packComponents ..

theorem isFinite_ofFields {sign : Sign} {exponent : BitVec 11} {mantissa : BitVec 52}
    (h : exponent ≠ -1#11) : (ofFields sign exponent mantissa).isFinite = true := by
  rw [ofFields, if_neg h]
  split_ifs <;> rfl

theorem isFinite_unpack_pack (sign : Sign) {mantissa : Nat} {exponent : Int}
    (positive : 0 < mantissa) :
    (Float.Model.pack (.finite sign mantissa exponent positive)).unpack.isFinite = true ↔
      exponent < 972 := by
  constructor
  · intro hfinite
    refine Int.lt_of_not_ge fun hhigh => ?_
    rw [unpack_pack_of_overflow sign positive hhigh] at hfinite
    contradiction
  · intro hlow
    rw [unpack_pack_of_lt sign positive hlow]
    split_ifs
    · exact isFinite_ofFields (exponentField_ne_highest hlow)
    · exact isFinite_ofFields (by decide)

theorem ofFields_normal (sign : Sign) {mantissa : Nat} {exponent : Int} (positive : 0 < mantissa)
    (small : mantissa < 2 ^ 53) (large : 2 ^ 52 ≤ mantissa) (low : -1074 ≤ exponent)
    (high : exponent ≤ 971) :
    ofFields sign (BitVec.ofNat 11 (exponent + 1075).toNat) (BitVec.ofNat 52 mantissa) =
      .finite sign mantissa exponent positive := by
  have hfield : (BitVec.ofNat 11 (exponent + 1075).toNat).toNat = (exponent + 1075).toNat :=
    Nat.mod_eq_of_lt (by omega)
  have hmantissa : 2 ^ 52 + (BitVec.ofNat 52 mantissa).toNat = mantissa := by
    rw [BitVec.toNat_ofNat]
    omega
  have hlowest : BitVec.ofNat 11 (exponent + 1075).toNat ≠ 0#11 := fun h => by
    rw [h] at hfield
    have : (0#11).toNat = 0 := rfl
    omega
  rw [ofFields, if_neg (exponentField_ne_highest (by omega)), if_neg hlowest]
  simp only [hmantissa, hfield]
  congr 1
  omega

theorem ofFields_subnormal (sign : Sign) {mantissa : Nat} (positive : 0 < mantissa)
    (small : mantissa < 2 ^ 52) :
    ofFields sign 0#11 (BitVec.ofNat 52 mantissa) = .finite sign mantissa (-1074) positive := by
  have hmantissa : (BitVec.ofNat 52 mantissa).toNat = mantissa := Nat.mod_eq_of_lt small
  rw [ofFields, if_neg (by decide), if_pos rfl]
  simp only [hmantissa, dif_pos positive]

theorem unpack_pack {number : UnpackedFloat} (h : Canonical number) :
    (Float.Model.pack number).unpack = number := by
  cases number with
  | notANumber | infinity | zero => exact unpack_packComponents ..
  | finite sign mantissa exponent positive =>
      obtain ⟨hsmall, hlarge, hlow, hhigh⟩ := h
      rw [unpack_pack_of_lt sign positive (by omega)]
      by_cases hnormal : 2 ^ 52 ≤ mantissa
      · rw [if_pos ((Nat.log2_eq_iff (by omega)).2 ⟨hnormal, hsmall⟩)]
        exact ofFields_normal sign positive hsmall hnormal hlow hhigh
      · have hlog : mantissa.log2 < 52 := (Nat.log2_lt (by omega)).2 (Nat.lt_of_not_ge hnormal)
        obtain rfl : exponent = -1074 := hlarge.resolve_left hnormal
        rw [if_neg (by omega)]
        exact ofFields_subnormal sign positive (Nat.lt_of_not_ge hnormal)

/-! ## Signs -/

theorem apply_neg (sign : Sign) (mantissa : Int) :
    (-sign).apply mantissa = -sign.apply mantissa := by
  cases sign with
  | negative => exact (Int.neg_neg mantissa).symm
  | positive => rfl

theorem normalize_of_neg (spec : Format) {mantissa : Int} (h : mantissa < 0) (exponent : Int) :
    UnpackedFloat.normalize spec mantissa exponent .positive =
      UnpackedFloat.round spec .negative (-mantissa).toNat exponent := by
  rw [UnpackedFloat.normalize, Int.compare_eq_lt.2 h]

theorem normalize_of_pos (spec : Format) {mantissa : Int} (h : 0 < mantissa) (exponent : Int) :
    UnpackedFloat.normalize spec mantissa exponent .positive =
      UnpackedFloat.round spec .positive mantissa.toNat exponent := by
  rw [UnpackedFloat.normalize, Int.compare_eq_gt.2 h]

theorem unpack_neg (x : Float) : (-x).toModel.unpack = UnpackedFloat.neg x.toModel.unpack := by
  refine unpack_pack ?_
  have hcanonical := canonical_unpack x.toModel
  revert hcanonical
  generalize x.toModel.unpack = number
  cases number with
  | finite => exact id
  | notANumber | infinity | zero => exact id

theorem unpack_abs (x : Float) : x.abs.toModel.unpack = UnpackedFloat.abs x.toModel.unpack := by
  refine unpack_pack ?_
  have hcanonical := canonical_unpack x.toModel
  revert hcanonical
  generalize x.toModel.unpack = number
  cases number with
  | finite => exact id
  | notANumber | infinity | zero => exact id

theorem abs_negated (x : Float) : (-x).abs = x.abs := by
  refine congrArg Float.ofModel ?_
  change Float.Model.pack (UnpackedFloat.abs (-x).toModel.unpack) =
    Float.Model.pack (UnpackedFloat.abs x.toModel.unpack)
  rw [unpack_neg]
  cases x.toModel.unpack <;> rfl

theorem unpackedSub_eq_add_neg (spec : Format) (x y : UnpackedFloat) :
    UnpackedFloat.sub spec x y = UnpackedFloat.add spec x (UnpackedFloat.neg y) := by
  cases x with
  | finite =>
      cases y with
      | finite =>
          simp only [UnpackedFloat.sub, UnpackedFloat.add, UnpackedFloat.neg, apply_neg,
            Int.sub_eq_add_neg]
      | notANumber | infinity | zero => rfl
  | notANumber | infinity | zero => cases y <;> rfl

theorem sub_eq_add_neg (x y : Float) : x - y = x + -y := by
  refine congrArg Float.ofModel ?_
  change Float.Model.pack (UnpackedFloat.sub .binary64 x.toModel.unpack y.toModel.unpack) =
    Float.Model.pack (UnpackedFloat.add .binary64 x.toModel.unpack (-y).toModel.unpack)
  rw [unpack_neg, unpackedSub_eq_add_neg]

/-! ## Equal operands -/

theorem not_lt_self (x : Float) : ¬ x < x := by
  change ¬ decide (UnpackedFloat.lt x.toModel.unpack x.toModel.unpack = true) = true
  cases x.toModel.unpack with
  | notANumber | zero => simp [UnpackedFloat.lt, UnpackedFloat.compare]
  | infinity sign => cases sign <;> decide
  | finite sign => cases sign <;> simp [UnpackedFloat.lt, UnpackedFloat.compare]

theorem unpackedSub_self (spec : Format) (number : UnpackedFloat) :
    UnpackedFloat.sub spec number number = .notANumber ∨
      UnpackedFloat.sub spec number number = .zero .positive := by
  cases number with
  | notANumber => exact .inl rfl
  | zero sign => cases sign <;> exact .inr rfl
  | infinity sign => cases sign <;> exact .inl rfl
  | finite =>
      right
      simp only [UnpackedFloat.sub, Int.sub_self]
      rfl

theorem sub_self (x : Float) : (x - x).isNaN = true ∨ x - x = 0 := by
  obtain h | h := unpackedSub_self .binary64 x.toModel.unpack
  · left
    change (Float.Model.pack (UnpackedFloat.sub .binary64 x.toModel.unpack
      x.toModel.unpack)).unpack.isNaN = true
    rw [h]
    rfl
  · right
    exact congrArg (fun number => Float.ofModel (Float.Model.pack number)) h

end Gcode.Double
