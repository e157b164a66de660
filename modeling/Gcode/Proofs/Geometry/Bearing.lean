import Gcode.Proofs.Geometry.Exact

/-!
# Bearings in exact arithmetic

The bearing of a direction that is not zero is an angle whose sine and cosine are the components of
the direction, in units of its length.
-/

namespace Gcode

open Real

def PointsAlong (angle x y : ℝ) : Prop :=
  √(x ^ 2 + y ^ 2) * sin angle = x ∧ √(x ^ 2 + y ^ 2) * cos angle = y

theorem PointsAlong.add_int_mul_two_pi {angle x y : ℝ} (h : PointsAlong angle x y) (turns : ℤ) :
    PointsAlong (angle + turns * (2 * π)) x y := by
  rw [PointsAlong, sin_add_int_mul_two_pi, cos_add_int_mul_two_pi]
  exact h

theorem PointsAlong.pi_sub {angle x y : ℝ} (h : PointsAlong angle x y) :
    PointsAlong (π - angle) x (-y) := by
  rw [PointsAlong, sin_pi_sub, cos_pi_sub, neg_sq, mul_neg, h.1, h.2]
  exact ⟨rfl, rfl⟩

theorem PointsAlong.neg_pi_sub {angle x y : ℝ} (h : PointsAlong angle x y) :
    PointsAlong (-π - angle) x (-y) := by
  have hturn := h.pi_sub.add_int_mul_two_pi (-1)
  have hangle : π - angle + ((-1 : ℤ) : ℝ) * (2 * π) = -π - angle := by
    push_cast
    ring
  rwa [hangle] at hturn

theorem arctan_pointsAlong (x : ℝ) {y : ℝ} (positive : 0 < y) :
    PointsAlong (arctan (x / y)) x y := by
  have hlength : √(x ^ 2 + y ^ 2) = y * √(1 + (x / y) ^ 2) := by
    rw [← sqrt_sq positive.le, ← sqrt_mul (sq_nonneg y), sqrt_sq positive.le]
    congr 1
    field_simp
    ring
  have hroot : √(1 + (x / y) ^ 2) ≠ 0 := (sqrt_pos.2 (by positivity)).ne'
  rw [PointsAlong, hlength, sin_arctan, cos_arctan]
  constructor <;> field_simp

theorem halfTurn_pointsAlong (x : ℝ) :
    PointsAlong (if x < 0 then -(π / 2) else π / 2) x 0 := by
  have hlength : √(x ^ 2 + 0 ^ 2) = |x| := by
    rw [zero_pow two_ne_zero, add_zero, sqrt_sq_eq_abs]
  rw [PointsAlong, hlength]
  split_ifs with hnegative
  · rw [sin_neg, cos_neg, sin_pi_div_two, cos_pi_div_two, abs_of_neg hnegative]
    constructor <;> ring
  · rw [sin_pi_div_two, cos_pi_div_two, abs_of_nonneg (not_lt.1 hnegative)]
    constructor <;> ring

theorem atan_pointsAlong {x y : ℝ} (nonzero : x ≠ 0 ∨ y ≠ 0) :
    ∃ angle, Scalar.atan (Exact.real x / Scalar.abs (Exact.real y)) = .real angle ∧
      PointsAlong angle x |y| := by
  by_cases hy : y = 0
  · -- the quotient is infinite, and its arctangent a quarter of a turn
    have hx : x ≠ 0 := nonzero.resolve_right (not_not_intro hy)
    rw [hy, Exact.scalar_abs, abs_zero, Exact.real_div_zero hx, Exact.scalar_atan_infinite]
    simp only [decide_eq_true_eq]
    exact ⟨_, rfl, halfTurn_pointsAlong x⟩
  · refine ⟨arctan (x / |y|), ?_, arctan_pointsAlong x (abs_pos.2 hy)⟩
    rw [Exact.scalar_abs, Exact.real_div _ (abs_ne_zero.2 hy), Exact.scalar_atan]

theorem bearing_pointsAlong {x y : ℝ} (nonzero : x ≠ 0 ∨ y ≠ 0) :
    ∃ angle, bearing (.real x) (.real y) = Exact.real angle ∧ PointsAlong angle x y := by
  obtain ⟨angle, hatan, halong⟩ := atan_pointsAlong nonzero
  unfold bearing
  simp only [hatan, Exact.scalar_ofNat, Exact.scalar_less, Exact.scalar_pi, Exact.real_sub,
    Exact.neg_real, Nat.cast_zero]
  split_ifs with hfront hright
  · rw [abs_of_pos hfront] at halong
    exact ⟨angle, rfl, halong⟩
  · rw [abs_of_nonpos (not_lt.1 hfront)] at halong
    refine ⟨π - angle, rfl, ?_⟩
    simpa using halong.pi_sub
  · rw [abs_of_nonpos (not_lt.1 hfront)] at halong
    refine ⟨-π - angle, rfl, ?_⟩
    simpa using halong.neg_pi_sub

theorem abs_atan_le {x y angle : ℝ} (nonzero : x ≠ 0 ∨ y ≠ 0)
    (h : Scalar.atan (Exact.real x / Scalar.abs (Exact.real y)) = .real angle) :
    |angle| ≤ π / 2 := by
  by_cases hy : y = 0
  · have hx : x ≠ 0 := nonzero.resolve_right (not_not_intro hy)
    have hquarter : |π / 2| ≤ π / 2 := (abs_of_pos pi_div_two_pos).le
    rw [hy, Exact.scalar_abs, abs_zero, Exact.real_div_zero hx, Exact.scalar_atan_infinite,
      Exact.real_inj] at h
    rw [← h]
    split <;> simp [hquarter]
  · rw [Exact.scalar_abs, Exact.real_div _ (abs_ne_zero.2 hy), Exact.scalar_atan,
      Exact.real_inj] at h
    rw [← h, abs_le]
    exact ⟨(neg_pi_div_two_lt_arctan _).le, (arctan_lt_pi_div_two _).le⟩

theorem bearing_mem_Ico {x y angle : ℝ} (nonzero : x ≠ 0 ∨ y ≠ 0)
    (h : bearing (.real x) (.real y) = Exact.real angle) : angle ∈ Set.Ico (-π) π := by
  obtain ⟨quarter, hatan, -⟩ := atan_pointsAlong nonzero
  obtain ⟨hlow, hhigh⟩ := abs_le.1 (abs_atan_le nonzero hatan)
  have hpi := pi_pos
  unfold bearing at h
  simp only [hatan, Exact.scalar_ofNat, Exact.scalar_less, Exact.scalar_pi, Exact.real_sub,
    Exact.neg_real, Nat.cast_zero] at h
  split_ifs at h with hfront hright <;> obtain rfl := (Exact.real_inj _ _).1 h
  · exact ⟨by linarith, by linarith⟩
  · exact ⟨by linarith, by linarith⟩
  · exact ⟨by linarith, by linarith⟩

/-! ## Travel -/

theorem add_travelBetween (startAngle endAngle : ℝ) (direction : Turn) :
    ∃ turns : ℤ,
      startAngle + travelBetween startAngle endAngle direction = endAngle + turns * (2 * π) := by
  unfold travelBetween
  simp only
  split_ifs
  · exact ⟨0, by push_cast; ring⟩
  · exact ⟨-1, by push_cast; ring⟩
  · exact ⟨1, by push_cast; ring⟩
  · exact ⟨0, by push_cast; ring⟩

theorem fullTurn_exact : (fullTurn : Exact) = .real (2 * π) := by
  simp [fullTurn]

end Gcode
