import Gcode.Proofs.Geometry.Side

/-!
# Angles of solved arcs

In exact arithmetic the bearing of a direction is its one angle within half a turn either way.  An
arc whose centre is apart from both of its ends starts at the angle of its start and travels, up to
whole turns, to the angle of its target.  Around the same centre the two ways of turning differ by
exactly one turn.
-/

namespace Gcode

open Real

/-- The angle of the direction `(x, y)`, clockwise from the second axis, from half a turn back up to
but not including half a turn ahead. -/
structure IsAngleOf (angle x y : ℝ) : Prop where
  range : angle ∈ Set.Ico (-π) π
  sine : sin angle = x / √(x ^ 2 + y ^ 2)
  cosine : cos angle = y / √(x ^ 2 + y ^ 2)

theorem length_pos {x y : ℝ} (nonzero : x ≠ 0 ∨ y ≠ 0) : 0 < √(x ^ 2 + y ^ 2) := by
  refine sqrt_pos.2 ?_
  rcases nonzero with hx | hy
  · have := pow_pos (abs_pos.2 hx) 2
    rw [sq_abs] at this
    positivity
  · have := pow_pos (abs_pos.2 hy) 2
    rw [sq_abs] at this
    positivity

theorem PointsAlong.isAngleOf {angle x y : ℝ} (along : PointsAlong angle x y)
    (nonzero : x ≠ 0 ∨ y ≠ 0) (range : angle ∈ Set.Ico (-π) π) : IsAngleOf angle x y where
  range := range
  sine := (eq_div_iff (length_pos nonzero).ne').2 (by rw [mul_comm, along.1])
  cosine := (eq_div_iff (length_pos nonzero).ne').2 (by rw [mul_comm, along.2])

theorem eq_of_sin_eq_of_cos_eq {angle other : ℝ} (near : |angle - other| < 2 * π)
    (sine : sin angle = sin other) (cosine : cos angle = cos other) : angle = other := by
  obtain ⟨hlow, hhigh⟩ := abs_lt.1 near
  have hcos : cos (angle - other) = 1 := by
    rw [cos_sub, sine, cosine, ← sq, ← sq, cos_sq_add_sin_sq]
  exact sub_eq_zero.1 ((cos_eq_one_iff_of_lt_of_lt hlow hhigh).1 hcos)

theorem IsAngleOf.unique {angle other x y : ℝ} (h : IsAngleOf angle x y)
    (hother : IsAngleOf other x y) : angle = other := by
  obtain ⟨hlow, hhigh⟩ := h.range
  obtain ⟨hotherLow, hotherHigh⟩ := hother.range
  refine eq_of_sin_eq_of_cos_eq ?_ (h.sine.trans hother.sine.symm)
    (h.cosine.trans hother.cosine.symm)
  exact abs_lt.2 ⟨by linarith, by linarith⟩

theorem bearing_isAngleOf {x y : ℝ} (nonzero : x ≠ 0 ∨ y ≠ 0) :
    ∃ angle, bearing (.real x) (.real y) = Exact.real angle ∧ IsAngleOf angle x y := by
  obtain ⟨angle, hbearing, halong⟩ := bearing_pointsAlong nonzero
  exact ⟨angle, hbearing, halong.isAngleOf nonzero (bearing_mem_Ico nonzero hbearing)⟩

/-! ## The two ways of turning -/

theorem travelBetween_clockwise_sub (startAngle endAngle : ℝ) :
    travelBetween startAngle endAngle .clockwise -
      travelBetween startAngle endAngle .counterclockwise = 2 * π := by
  simp [travelBetween]

/-- The helix starts at the angle of a start as seen from a centre and leads to that of a target. -/
structure Helix.Spans (helix : Helix ℝ) (direction : Turn) (start target centre : Point ℝ) :
    Prop where
  fromStart : IsAngleOf helix.startBearing
    (start.get helix.plane.first - centre.get helix.plane.first)
    (start.get helix.plane.second - centre.get helix.plane.second)
  covers : direction.Covers helix.travel
  toTarget : ∃ (angle : ℝ) (turns : ℤ),
    IsAngleOf angle (target.get helix.plane.first - centre.get helix.plane.first)
      (target.get helix.plane.second - centre.get helix.plane.second) ∧
    helix.startBearing + helix.travel = angle + turns * (2 * π)

/-- Seen along the axis across a plane, a centre is apart from both ends of an arc. -/
structure Plane.Apart (plane : Plane) (start target centre : Point ℝ) : Prop where
  start : 0 < plane.distance start centre
  target : 0 < plane.distance target centre

section

variable {start target offset : Point ℝ} {plane : Plane}

theorem arcAround_spans (apart : plane.Apart start target (start.translate offset)) :
    ∃ helix : Turn → Helix ℝ, (∀ direction, (helix direction).plane = plane ∧
        arcAround start.exact target.exact offset.exact plane direction =
          ⟨offset.exact, (helix direction).exact⟩ ∧
        (helix direction).Spans direction start target (start.translate offset)) ∧
      (helix .clockwise).travel - (helix .counterclockwise).travel = 2 * π := by
  obtain ⟨startAngle, endAngle, ⟨hstart, hstartAlong, hstartRange⟩, hend, hendAlong, hendRange⟩ :=
    exists_bearings apart.start apart.target
  refine ⟨fun direction =>
    { startBearing := startAngle
      travel := travelBetween startAngle endAngle direction
      radius := √(offset.get plane.first ^ 2 + offset.get plane.second ^ 2)
      depth := target.get plane.across - start.get plane.across
      plane }, fun direction => ?_, travelBetween_clockwise_sub startAngle endAngle⟩
  obtain ⟨turns, hturns⟩ := add_travelBetween startAngle endAngle direction
  exact ⟨rfl, arcAround_of_bearings hstart hend,
    { fromStart := hstartAlong.isAngleOf (Plane.distance_pos apart.start) hstartRange
      covers := travelBetween_covers hstartRange hendRange direction
      toTarget := ⟨endAngle, turns,
        hendAlong.isAngleOf (Plane.distance_pos apart.target) hendRange, hturns⟩ }⟩

/-! ## Solved arcs -/

/-- The arc is one that is solved between two points, by an offset or by a radius. -/
def IsSolvedArc (start target : Point ℝ) (plane : Plane) (direction : Turn)
    (arc : CentredArc Exact) : Prop :=
  ∃ (offset : Point ℝ) (radius : Option ℝ),
    arcBetween start.exact target.exact offset.exact (radius.map .real) plane direction = .ok arc

theorem IsSolvedArc.exists_way {direction : Turn} {arc : CentredArc Exact}
    (solved : IsSolvedArc start target plane direction arc) :
    ∃ way : Point ℝ, arc = arcAround start.exact target.exact way.exact plane direction := by
  obtain ⟨offset, radius, hsolved⟩ := solved
  obtain ⟨harc, hway⟩ := arcBetween_ok hsolved
  rcases hway with ⟨-, hoffset⟩ | ⟨r, hradius, hcentre⟩
  · exact ⟨offset, hoffset ▸ harc⟩
  · obtain ⟨r, -, rfl⟩ := Option.map_eq_some_iff.1 hradius
    by_cases hfits : plane.Fits r start target
    · rw [centreByRadius_of_fits hfits] at hcentre
      exact ⟨_, (Except.ok.inj hcentre) ▸ harc⟩
    · obtain ⟨failure, hfailure⟩ := centreByRadius_isError_iff.2 hfits
      rw [hfailure] at hcentre
      contradiction

end

/-- In exact arithmetic the bearing of a direction that is not zero is its one angle from half a
turn back up to but not including half a turn ahead.  Every solved arc has a real centre.  If that
is apart from both ends, the arc starts at the angle of its start, travels less than a turn
clockwise or at most a turn the other way, and ends up to whole turns at the angle of its target.
Two solved arcs around one centre, clockwise and counterclockwise, differ by exactly one turn. -/
theorem isSolvedArc_spans :
    (∀ x y : ℝ, x ≠ 0 ∨ y ≠ 0 → ∃ angle, bearing (.real x) (.real y) = Exact.real angle ∧
      ∀ other, IsAngleOf other x y ↔ other = angle) ∧
    ∀ (start target : Point ℝ) (plane : Plane),
      (∀ direction arc, IsSolvedArc start target plane direction arc →
        ∃ way : Point ℝ, arc.offset = way.exact ∧
          (plane.Apart start target (start.translate way) →
            ∃ helix : Helix ℝ, helix.plane = plane ∧ arc.helix = helix.exact ∧
              helix.Spans direction start target (start.translate way))) ∧
      ∀ (arc other : CentredArc Exact) (way : Point ℝ),
        IsSolvedArc start target plane .clockwise arc →
        IsSolvedArc start target plane .counterclockwise other →
        arc.offset = way.exact → other.offset = way.exact →
        plane.Apart start target (start.translate way) →
          ∃ travel otherTravel : ℝ, arc.helix.travel = .real travel ∧
            other.helix.travel = .real otherTravel ∧ travel - otherTravel = 2 * π := by
  refine ⟨fun x y nonzero => ?_, fun start target plane => ⟨fun direction arc solved => ?_, ?_⟩⟩
  · obtain ⟨angle, hbearing, hangle⟩ := bearing_isAngleOf nonzero
    exact ⟨angle, hbearing, fun other => ⟨fun hother => hother.unique hangle, fun h => h ▸ hangle⟩⟩
  · obtain ⟨way, rfl⟩ := solved.exists_way
    refine ⟨way, rfl, fun apart => ?_⟩
    obtain ⟨helix, hhelix, -⟩ := arcAround_spans apart
    obtain ⟨hplane, hsolved, hspans⟩ := hhelix direction
    exact ⟨helix direction, hplane, congrArg CentredArc.helix hsolved, hspans⟩
  · intro arc other way harc hother hway hotherWay apart
    obtain ⟨first, rfl⟩ := harc.exists_way
    obtain ⟨second, rfl⟩ := hother.exists_way
    obtain rfl : first = way := Point.exact_injective hway
    obtain rfl : second = first := Point.exact_injective hotherWay
    obtain ⟨helix, hhelix, hturn⟩ := arcAround_spans apart
    refine ⟨(helix .clockwise).travel, (helix .counterclockwise).travel, ?_, ?_, hturn⟩
    · rw [(hhelix .clockwise).2.1]
      rfl
    · rw [(hhelix .counterclockwise).2.1]
      rfl

theorem isSolvedArc_spans_halfTurn :
    let start : Point ℝ := ⟨1, 0, 0⟩
    let target : Point ℝ := ⟨-1, 0, 2⟩
    let way : Point ℝ := ⟨-1, 0, 0⟩
    ((-3 : ℝ) ≠ 0 ∨ (0 : ℝ) ≠ 0) ∧
      bearing (.real (-3)) (.real 0) = Exact.real (-(π / 2)) ∧
      ∃ arc other : CentredArc Exact, IsSolvedArc start target .xy .clockwise arc ∧
        IsSolvedArc start target .xy .counterclockwise other ∧ arc.offset = way.exact ∧
        other.offset = way.exact ∧ Plane.xy.Apart start target (start.translate way) ∧
        ∃ travel otherTravel : ℝ, arc.helix.travel = .real travel ∧
          other.helix.travel = .real otherTravel ∧ travel - otherTravel = 2 * π := by
  intro start target way
  have hback : (-3 : ℝ) ≠ 0 ∨ (0 : ℝ) ≠ 0 := .inl (by norm_num)
  obtain ⟨hbearings, harcs⟩ := isSolvedArc_spans
  obtain ⟨angle, hbearing, hunique⟩ := hbearings (-3) 0 hback
  have hquarter : IsAngleOf (-(π / 2)) (-3) 0 := by
    have hthree : √((-3 : ℝ) ^ 2 + 0 ^ 2) = 3 := by
      rw [show ((-3 : ℝ) ^ 2 + 0 ^ 2) = 3 ^ 2 by norm_num, sqrt_sq (by norm_num)]
    have hpi := pi_pos
    refine ⟨⟨by linarith, by linarith⟩, ?_, ?_⟩
    · rw [hthree, sin_neg, sin_pi_div_two]
      norm_num
    · rw [cos_neg, cos_pi_div_two, zero_div]
  have happart : Plane.xy.Apart start target (start.translate way) := by
    constructor <;>
      norm_num [Plane.distance, Plane.xy, Point.translate, Point.get, start, target, way]
  have hsolved (direction : Turn) : IsSolvedArc start target .xy direction
      (arcAround start.exact target.exact way.exact .xy direction) := ⟨way, none, rfl⟩
  refine ⟨hback, ?_, _, _, hsolved .clockwise, hsolved .counterclockwise, rfl, rfl, happart,
    (harcs start target .xy).2 _ _ way (hsolved .clockwise) (hsolved .counterclockwise) rfl rfl
      happart⟩
  rw [hbearing, (hunique _).1 hquarter]

end Gcode
