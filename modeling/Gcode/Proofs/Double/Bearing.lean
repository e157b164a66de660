import Gcode.Proofs.Double.Value
import Gcode.Proofs.Geometry.Centre

/-!
# Bearings of doubles

A bearing is taken from the quotient of two components, which is no number if both vanish or both
are infinite, and only then.  If the arctangent is sound, the bearing is a number exactly if the
quotient is, and the travel of an arc exactly if both of its bearings are.
-/

namespace Gcode

namespace Kind

def isNumber (kind : Kind) : Bool := kind ≠ nan

/-! ## Operations that lead from numbers to numbers -/

theorem isNumber_of_isFinite : ∀ {kind : Kind}, kind.isFinite = true → kind.isNumber = true := by
  decide

theorem isNumber_opposite : ∀ kind : Kind, (opposite kind).isNumber = kind.isNumber := by
  decide

theorem isNumber_sum_of_finite_left : ∀ {left right result : Kind}, result ∈ sums left right →
    left.isFinite = true → right.isNumber = true → result.isNumber = true := by
  decide

theorem isNumber_sum_of_finite_right : ∀ {left right result : Kind}, result ∈ sums left right →
    left.isNumber = true → right.isFinite = true → result.isNumber = true := by
  decide

theorem isNumber_of_sum : ∀ {left right result : Kind}, result ∈ sums left right →
    result.isNumber = true → left.isNumber = true ∧ right.isNumber = true := by
  decide

theorem isNumber_sum_eq : ∀ {left right result : Kind}, result ∈ sums left right →
    right.isFinite = true → result.isNumber = left.isNumber := by
  decide

theorem isNumber_product_of_finite : ∀ {left right result : Kind}, result ∈ products left right →
    left.isFinite = true → right.isFinite = true → result.isNumber = true := by
  decide

theorem isNumber_quotient_of_nonzero : ∀ {left right result : Kind} {sign : Bool},
    right = nonzero sign → result ∈ quotients left right → left.isNumber = true →
      result.isNumber = true := by
  decide

/-! ## Quotients of bearings -/

theorem isNumber_bearingQuotient_iff : ∀ {left right result : Kind},
    result ∈ quotients left (magnitude right) → left.isNumber = true → right.isNumber = true →
      (result.isNumber = true ↔
        ¬ ((left = zero true ∨ left = zero false) ∧ (right = zero true ∨ right = zero false)) ∧
          ¬ ((left = infinite true ∨ left = infinite false) ∧
            (right = infinite true ∨ right = infinite false))) := by
  decide

end Kind

open Kind

theorem isNaN_eq_false_iff (x : Float) : x.isNaN = false ↔ (ofFloat x).isNumber = true := by
  rw [← Bool.not_eq_true, isNaN_iff]
  simp [isNumber]

theorem isFinite_of_sub {x y : Float} (h : (x - y).isFinite = true) :
    x.isFinite = true ∧ y.isFinite = true := by
  simp only [isFinite_eq] at h ⊢
  have hoperands := isFinite_of_mem_sums (ofFloat_sub x y) h
  exact ⟨hoperands.1, (isFinite_opposite _).symm.trans hoperands.2⟩

theorem isNumber_sub_of_finite_right {x y : Float} (hx : (ofFloat x).isNumber = true)
    (hy : (ofFloat y).isFinite = true) : (ofFloat (x - y)).isNumber = true := by
  rw [← isFinite_opposite] at hy
  exact isNumber_sum_of_finite_right (ofFloat_sub x y) hx hy

theorem isNumber_sub_of_finite_left {x y : Float} (hx : (ofFloat x).isFinite = true)
    (hy : (ofFloat y).isNumber = true) : (ofFloat (x - y)).isNumber = true := by
  rw [← isNumber_opposite] at hy
  exact isNumber_sum_of_finite_left (ofFloat_sub x y) hx hy

theorem isNumber_neg {x : Float} (hx : (ofFloat x).isNumber = true) :
    (ofFloat (-x)).isNumber = true := by
  rwa [ofFloat_neg, isNumber_opposite]

theorem isNaN_of_isFinite {x : Float} (h : x.isFinite = true) : x.isNaN = false := by
  rw [isNaN_eq_false_iff]
  rw [isFinite_eq] at h
  exact isNumber_of_isFinite h

/-! ## Bearings -/

theorem beq_zero_iff (x : Float) :
    (x == 0) = true ↔ ofFloat x = zero true ∨ ofFloat x = zero false := by
  change (x.toModel.unpack.compare (.zero .positive) == some .eq) = true ↔
    ofUnpacked x.toModel.unpack = _ ∨ ofUnpacked x.toModel.unpack = _
  cases x.toModel.unpack with
  | infinity sign | zero sign | finite sign =>
      cases sign <;> simp [Float.Model.UnpackedFloat.compare, ofUnpacked, isNegative]
  | notANumber => simp [Float.Model.UnpackedFloat.compare, ofUnpacked]

theorem isInf_iff (x : Float) :
    x.isInf = true ↔ ofFloat x = infinite true ∨ ofFloat x = infinite false := by
  change x.toModel.unpack.isInf = true ↔
    ofUnpacked x.toModel.unpack = _ ∨ ofUnpacked x.toModel.unpack = _
  cases x.toModel.unpack with
  | infinity sign => cases sign <;> simp [Float.Model.UnpackedFloat.isInf, ofUnpacked, isNegative]
  | notANumber | zero | finite => simp [Float.Model.UnpackedFloat.isInf, ofUnpacked]

/-- The in-plane way from the centre of an arc to one of its ends. -/
structure Arm where
  first : Float
  second : Float

namespace Arm

def bearing (arm : Arm) : Float := Gcode.bearing arm.first arm.second

/-- Whether the way has a direction: its bearing is the arctangent of this quotient. -/
def HasBearing (arm : Arm) : Prop := (arm.first / arm.second.abs).isNaN = false

def IsZero (arm : Arm) : Prop := (arm.first == 0) = true ∧ (arm.second == 0) = true

def IsInfinite (arm : Arm) : Prop := arm.first.isInf = true ∧ arm.second.isInf = true

theorem hasBearing_iff {arm : Arm} (first : (ofFloat arm.first).isNumber = true)
    (second : (ofFloat arm.second).isNumber = true) :
    arm.HasBearing ↔ ¬ arm.IsZero ∧ ¬ arm.IsInfinite := by
  rw [HasBearing, IsZero, IsInfinite, isNaN_eq_false_iff, beq_zero_iff, beq_zero_iff, isInf_iff,
    isInf_iff]
  have hquotient := ofFloat_div arm.first arm.second.abs
  rw [ofFloat_abs] at hquotient
  exact isNumber_bearingQuotient_iff hquotient first second

def toStart (offset : Point Float) (plane : Plane) : Arm :=
  ⟨-offset.get plane.first, -offset.get plane.second⟩

def toEnd (position target offset : Point Float) (plane : Plane) : Arm :=
  ⟨target.get plane.first - offset.get plane.first - position.get plane.first,
    target.get plane.second - offset.get plane.second - position.get plane.second⟩

end Arm

/-! ## Travels -/

theorem isNaN_travelBetween_iff {first last : Float}
    (start : first.isNaN = false → first.isFinite = true) (direction : Turn) :
    (direction.travelBetween first last).isNaN = false ↔
      first.isNaN = false ∧ last.isNaN = false := by
  have hturn : (ofFloat fullTurn).isFinite = true := by rfl
  simp only [isNaN_eq_false_iff, isFinite_eq] at start ⊢
  have hahead : ∀ {ahead : Float}, (ofFloat ahead).isNumber = (ofFloat last).isNumber →
      ((ofFloat (ahead - first)).isNumber = true ↔
        (ofFloat first).isNumber = true ∧ (ofFloat last).isNumber = true) := by
    intro ahead hsame
    constructor
    · intro hnumber
      obtain ⟨hleft, hright⟩ := isNumber_of_sum (ofFloat_sub _ _) hnumber
      exact ⟨(isNumber_opposite _).symm.trans hright, hsame.symm.trans hleft⟩
    · rintro ⟨hfirst, hlast⟩
      exact isNumber_sub_of_finite_right (hsame.trans hlast) (start hfirst)
  have hlast : (ofFloat (if Scalar.less last first then last + fullTurn else last)).isNumber =
      (ofFloat last).isNumber := by
    split_ifs
    · exact isNumber_sum_eq (ofFloat_add _ _) hturn
    · rfl
  cases direction with
  | clockwise => exact hahead hlast
  | counterclockwise =>
      have hless : (ofFloat fullTurn).opposite.isFinite = true := (isFinite_opposite _).trans hturn
      exact (Bool.eq_iff_iff.1 (isNumber_sum_eq (ofFloat_sub _ _) hless)).trans (hahead hlast)

/-! ## The arctangent -/

/-- What bearings need of the arctangent: that of a number is at most a quarter of a turn, and what
is no number has none. -/
structure SoundArctangent : Prop where
  isFinite : ∀ {x : Float}, x.isNaN = false → (Float.atan x).isFinite = true
  lower : ∀ {x : Float}, x.isNaN = false → -(Scalar.pi / 2) ≤ Float.atan x
  upper : ∀ {x : Float}, x.isNaN = false → Float.atan x ≤ Scalar.pi / 2
  isNaN : ∀ {x : Float}, x.isNaN = true → (Float.atan x).isNaN = true

namespace SoundArctangent

open Double

variable (arctangent : SoundArctangent) {arm : Arm}
include arctangent

theorem abs_exactValue_le {x : Float} (number : x.isNaN = false) :
    |exactValue (Float.atan x)| ≤ 2 := by
  have hfinite := arctangent.isFinite number
  have htwo : exactValue 2 = 2 := exactValue_of_isNatural (by decide +kernel)
  have hquarter : exactValue (Scalar.pi / 2) ≤ 2 := by
    rw [← htwo]
    exact (le_iff (by decide +kernel) (by decide +kernel)).1 (by decide +kernel)
  have hlower := (le_iff (by decide +kernel) hfinite).1 (arctangent.lower number)
  have hupper := (le_iff hfinite (by decide +kernel)).1 (arctangent.upper number)
  rw [exactValue_neg] at hlower
  exact abs_le.2 ⟨by linarith, hupper.trans hquarter⟩

theorem isFinite_sub_arctangent {x turn : Float} (number : x.isNaN = false)
    (finite : turn.isFinite = true) (small : |exactValue turn| ≤ 4) :
    (turn - Float.atan x).isFinite = true := by
  have hangle := abs_le.1 (arctangent.abs_exactValue_le number)
  have hturn := abs_le.1 small
  rw [Double.sub_eq_add_neg, isFinite_add_iff finite
    ((isFinite_neg _).trans (arctangent.isFinite number)), exactValue_neg]
  have hbound : (6 : ℚ) < overflowBound := by
    have hpower : (1 : ℚ) ≤ 2 ^ (970 : ℤ) := one_le_zpow₀ one_le_two (by decide)
    rw [overflowBound_eq]
    exact lt_of_lt_of_le (by norm_num) (le_mul_of_one_le_right (by norm_num) hpower)
  exact lt_of_le_of_lt (abs_le.2 ⟨by linarith, by linarith⟩) hbound

theorem isFinite_bearing (direct : arm.HasBearing) : arm.bearing.isFinite = true := by
  have hpi : |exactValue (Scalar.pi : Float)| ≤ 4 := by
    have hfour : exactValue 4 = 4 := exactValue_of_isNatural (by decide +kernel)
    have hzero : exactValue 0 = 0 := rfl
    rw [abs_le, ← hfour, ← exactValue_neg, ← le_iff, ← le_iff] <;> decide +kernel
  have hnegated : |exactValue (-Scalar.pi : Float)| ≤ 4 := by
    rwa [exactValue_neg, abs_neg]
  simp only [Arm.bearing, Gcode.bearing]
  split_ifs
  · exact arctangent.isFinite direct
  · exact arctangent.isFinite_sub_arctangent direct (by decide +kernel) hpi
  · exact arctangent.isFinite_sub_arctangent direct (by decide +kernel) hnegated

theorem isNaN_bearing (undirected : ¬ arm.HasBearing) : arm.bearing.isNaN = true := by
  have hangle := arctangent.isNaN (Bool.of_not_eq_false undirected)
  have hsub : ∀ turn : Float, (turn - Float.atan (arm.first / arm.second.abs)).isNaN = true := by
    intro turn
    by_contra hnumber
    have hsum := (isNaN_eq_false_iff _).1 (Bool.eq_false_of_not_eq_true hnumber)
    have hoperand := (isNumber_of_sum (ofFloat_sub _ _) hsum).2
    rw [isNumber_opposite, ← isNaN_eq_false_iff, hangle] at hoperand
    contradiction
  simp only [Arm.bearing, Gcode.bearing]
  split_ifs
  · exact hangle
  · exact hsub _
  · exact hsub _

theorem isNaN_bearing_iff : arm.bearing.isNaN = false ↔ arm.HasBearing := by
  constructor
  · intro hnumber
    by_contra hundirected
    exact Bool.false_ne_true (hnumber.symm.trans (arctangent.isNaN_bearing hundirected))
  · intro hdirect
    exact isNaN_of_isFinite (arctangent.isFinite_bearing hdirect)

theorem isNaN_travelBetween_iff {last : Float} {direction : Turn} :
    (direction.travelBetween arm.bearing last).isNaN = false ↔
      arm.HasBearing ∧ last.isNaN = false := by
  rw [Gcode.isNaN_travelBetween_iff, arctangent.isNaN_bearing_iff]
  exact fun hnumber => arctangent.isFinite_bearing (arctangent.isNaN_bearing_iff.1 hnumber)

end SoundArctangent

/-! ## Arcs around a centre -/

section

variable (position target offset : Point Float) (plane : Plane) (direction : Turn)

theorem startBearing_arcAround :
    (arcAround position target offset plane direction).helix.startBearing =
      (Arm.toStart offset plane).bearing := rfl

theorem travel_arcAround :
    (arcAround position target offset plane direction).helix.travel =
      direction.travelBetween (Arm.toStart offset plane).bearing
        (Arm.toEnd position target offset plane).bearing := rfl

end

end Gcode
