import Gcode.Proofs.Geometry.Circle

/-!
# How far an arc travels

An arc travels less than a turn clockwise, or at most a turn the other way.  How far it goes shows
in its chord: the length of the chord gives the cosine of the travel, and the side of the chord on
which the centre lies the sign of the sine, which tells the two halves of a turn apart.
-/

namespace Gcode

open Real

theorem travelBetween_covers {startAngle endAngle : ℝ} (hstart : startAngle ∈ Set.Ico (-π) π)
    (hend : endAngle ∈ Set.Ico (-π) π) (direction : Turn) :
    direction.Covers (travelBetween startAngle endAngle direction) := by
  obtain ⟨hstartLow, hstartHigh⟩ := hstart
  obtain ⟨hendLow, hendHigh⟩ := hend
  have hpi := pi_pos
  cases direction <;> simp only [Turn.Covers, travelBetween] <;> split_ifs <;>
    first | contradiction | constructor <;> linarith

theorem arcAround_covers {start target offset : Point ℝ} {plane : Plane} {direction : Turn}
    {helix : Helix ℝ}
    (solved : arcAround start.exact target.exact offset.exact plane direction =
      ⟨offset.exact, helix.exact⟩)
    (apart : 0 < plane.distance start (start.translate offset))
    (targetApart : 0 < plane.distance target (start.translate offset)) :
    direction.Covers helix.travel := by
  obtain ⟨startAngle, endAngle, ⟨hstart, -, hstartMem⟩, hend, -, hendMem⟩ :=
    exists_bearings apart targetApart
  rw [arcAround_of_bearings hstart hend] at solved
  have htravel := congrArg (fun arc => arc.helix.travel) solved
  have hsame : travelBetween startAngle endAngle direction = helix.travel :=
    (Exact.real_inj _ _).1 htravel
  rw [← hsame]
  exact travelBetween_covers hstartMem hendMem direction

theorem Turn.Covers.sin_abs {direction : Turn} {travel : ℝ} (covers : direction.Covers travel) :
    sin |travel| = if direction = .clockwise then sin travel else -sin travel := by
  cases direction with
  | clockwise => rw [abs_of_nonneg covers.1, if_pos rfl]
  | counterclockwise => rw [abs_of_neg covers.2, sin_neg, if_neg (by decide)]

/-! ## The chord of an arc -/

namespace Helix.Joins

variable {helix : Helix ℝ} {start target centre : Point ℝ}

theorem get_start (joins : helix.Joins start target centre) :
    start.get helix.plane.first =
        centre.get helix.plane.first + helix.radius * sin helix.startBearing ∧
      start.get helix.plane.second =
        centre.get helix.plane.second + helix.radius * cos helix.startBearing := by
  obtain ⟨hsin, hcos⟩ := joins.fromStart
  have hradius := joins.startRadius
  rw [Plane.distance] at hradius
  rw [hradius] at hsin hcos
  exact ⟨by linarith, by linarith⟩

theorem get_target (joins : helix.Joins start target centre) :
    target.get helix.plane.first =
        centre.get helix.plane.first + helix.radius * sin (helix.startBearing + helix.travel) ∧
      target.get helix.plane.second =
        centre.get helix.plane.second +
          helix.radius * cos (helix.startBearing + helix.travel) := by
  obtain ⟨hsin, hcos⟩ := joins.toTarget
  have hradius := joins.targetRadius
  rw [Plane.distance] at hradius
  rw [hradius] at hsin hcos
  exact ⟨by linarith, by linarith⟩

theorem sq_chord (joins : helix.Joins start target centre) :
    (target.get helix.plane.first - start.get helix.plane.first) ^ 2 +
        (target.get helix.plane.second - start.get helix.plane.second) ^ 2 =
      2 * helix.radius ^ 2 * (1 - cos helix.travel) := by
  obtain ⟨hstartFirst, hstartSecond⟩ := joins.get_start
  obtain ⟨htargetFirst, htargetSecond⟩ := joins.get_target
  have htravel := cos_sub (helix.startBearing + helix.travel) helix.startBearing
  rw [add_sub_cancel_left] at htravel
  rw [hstartFirst, hstartSecond, htargetFirst, htargetSecond, htravel]
  linear_combination helix.radius ^ 2 * sin_sq_add_cos_sq (helix.startBearing + helix.travel) +
    helix.radius ^ 2 * sin_sq_add_cos_sq helix.startBearing

theorem cross_centre (joins : helix.Joins start target centre) :
    (target.get helix.plane.first - start.get helix.plane.first) *
          (centre.get helix.plane.second - start.get helix.plane.second) -
        (target.get helix.plane.second - start.get helix.plane.second) *
          (centre.get helix.plane.first - start.get helix.plane.first) =
      -(helix.radius ^ 2 * sin helix.travel) := by
  obtain ⟨hstartFirst, hstartSecond⟩ := joins.get_start
  obtain ⟨htargetFirst, htargetSecond⟩ := joins.get_target
  have htravel := sin_sub (helix.startBearing + helix.travel) helix.startBearing
  rw [add_sub_cancel_left] at htravel
  rw [hstartFirst, hstartSecond, htargetFirst, htargetSecond, htravel]
  ring

theorem abs_travel_mem_Ioo (joins : helix.Joins start target centre) {direction : Turn}
    (covers : direction.Covers helix.travel)
    (chord : 0 < (target.get helix.plane.first - start.get helix.plane.first) ^ 2 +
      (target.get helix.plane.second - start.get helix.plane.second) ^ 2) :
    |helix.travel| ∈ Set.Ioo 0 (2 * π) := by
  have hcos : cos helix.travel ≠ 1 := by
    intro hcos
    rw [joins.sq_chord, hcos] at chord
    simp at chord
  have hzero : helix.travel ≠ 0 := by
    intro hzero
    rw [hzero, cos_zero] at hcos
    contradiction
  refine ⟨abs_pos.2 hzero, ?_⟩
  cases direction with
  | clockwise =>
      rw [abs_of_nonneg covers.1]
      exact covers.2
  | counterclockwise =>
      have hturn : helix.travel ≠ -(2 * π) := by
        intro hturn
        rw [hturn, cos_neg, cos_two_pi] at hcos
        contradiction
      rw [abs_of_neg covers.2]
      linarith [lt_of_le_of_ne covers.1 hturn.symm]

end Helix.Joins

/-! ## Half a turn -/

theorem le_pi_of_sin_nonneg {angle : ℝ} (short : angle < 2 * π) (h : 0 ≤ sin angle) :
    angle ≤ π := by
  by_contra hbeyond
  have hnegative := sin_neg_of_neg_of_neg_pi_lt (x := angle - 2 * π) (by linarith) (by linarith)
  rw [sin_sub_two_pi] at hnegative
  linarith

theorem pi_le_of_sin_nonpos {angle : ℝ} (positive : 0 < angle) (h : sin angle ≤ 0) :
    π ≤ angle := by
  by_contra hbefore
  have hpositive := sin_pos_of_pos_of_lt_pi positive (not_le.1 hbefore)
  linarith

end Gcode
