import Gcode.Proofs.Geometry.Bearing
import Gcode.Proofs.Geometry.Levelling
import Gcode.Proofs.Geometry.Radius

/-!
# Arcs on circles

In exact arithmetic a solved arc starts at its start, ends at its target and stays on a circle
between them, into however many chords it is cut.
-/

namespace Gcode

open Real

noncomputable def Plane.distance (plane : Plane) (left right : Point ℝ) : ℝ :=
  √((left.get plane.first - right.get plane.first) ^ 2 +
    (left.get plane.second - right.get plane.second) ^ 2)

noncomputable def Point.translate (point way : Point ℝ) : Point ℝ :=
  ⟨point.x + way.x, point.y + way.y, point.z + way.z⟩

@[simp] theorem Point.get_translate (point way : Point ℝ) (axis : Axis) :
    (point.translate way).get axis = point.get axis + way.get axis := by
  cases axis <;> rfl

/-! ## The helix of an arc -/

def Helix.exact (helix : Helix ℝ) : Helix Exact :=
  ⟨.real helix.startBearing, .real helix.travel, .real helix.radius, .real helix.depth, helix.plane⟩

/-- The helix leads from a start around a centre to a target. -/
structure Helix.Joins (helix : Helix ℝ) (start target centre : Point ℝ) : Prop where
  distinct : helix.plane.axes.Nodup
  fromStart : PointsAlong helix.startBearing
    (start.get helix.plane.first - centre.get helix.plane.first)
    (start.get helix.plane.second - centre.get helix.plane.second)
  toTarget : PointsAlong (helix.startBearing + helix.travel)
    (target.get helix.plane.first - centre.get helix.plane.first)
    (target.get helix.plane.second - centre.get helix.plane.second)
  startRadius : helix.plane.distance start centre = helix.radius
  targetRadius : helix.plane.distance target centre = helix.radius
  depth : helix.depth = target.get helix.plane.across - start.get helix.plane.across

noncomputable def Helix.realPoint (helix : Helix ℝ) (start : Point ℝ) (count step : Nat) :
    Point ℝ :=
  let plane := helix.plane
  let centreFirst := start.get plane.first - sin helix.startBearing * helix.radius
  let centreSecond := start.get plane.second - cos helix.startBearing * helix.radius
  let bearing := helix.startBearing + helix.travel / count * step
  ((start.set plane.first (centreFirst + sin bearing * helix.radius)).set plane.second
    (centreSecond + cos bearing * helix.radius)).set plane.across
      (start.get plane.across + helix.depth / count * step)

theorem pointAt_exact (helix : Helix ℝ) (start : Point ℝ) {count : Nat} (positive : 0 < count)
    (step : Nat) :
    helix.exact.pointAt start.exact count step = (helix.realPoint start count step).exact := by
  have hcount : (count : ℝ) ≠ 0 := Nat.cast_ne_zero.2 positive.ne'
  simp only [Helix.pointAt, Helix.exact, Helix.realPoint, Point.exact_set, Point.get_exact,
    Exact.scalar_ofNat, Exact.scalar_sin, Exact.scalar_cos, Exact.real_div _ hcount,
    Exact.real_mul, Exact.real_add, Exact.real_sub]

/-! ## Points of a helix -/

namespace Helix.Joins

variable {helix : Helix ℝ} {start target centre : Point ℝ}

theorem radius_nonneg (joins : helix.Joins start target centre) : 0 ≤ helix.radius := by
  rw [← joins.startRadius]
  exact sqrt_nonneg _

theorem get_realPoint (joins : helix.Joins start target centre) (count step : Nat) :
    let bearing := helix.startBearing + helix.travel / count * step
    (helix.realPoint start count step).get helix.plane.first =
        centre.get helix.plane.first + helix.radius * sin bearing ∧
      (helix.realPoint start count step).get helix.plane.second =
        centre.get helix.plane.second + helix.radius * cos bearing ∧
      (helix.realPoint start count step).get helix.plane.across =
        start.get helix.plane.across + helix.depth / count * step := by
  intro bearing
  obtain ⟨hinPlane, hfirst, hsecond⟩ := Plane.axes_ne joins.distinct
  have hradius := joins.startRadius
  obtain ⟨hsin, hcos⟩ := joins.fromStart
  rw [Plane.distance] at hradius
  rw [hradius] at hsin hcos
  refine ⟨?_, ?_, Point.get_set_self ..⟩
  · rw [realPoint, Point.get_set_of_ne _ hfirst, Point.get_set_of_ne _ hinPlane,
      Point.get_set_self]
    linarith
  · rw [realPoint, Point.get_set_of_ne _ hsecond, Point.get_set_self]
    linarith

theorem distance_realPoint (joins : helix.Joins start target centre) (count step : Nat) :
    helix.plane.distance (helix.realPoint start count step) centre = helix.radius := by
  obtain ⟨hfirst, hsecond, -⟩ := joins.get_realPoint count step
  rw [Plane.distance, hfirst, hsecond, add_sub_cancel_left, add_sub_cancel_left, mul_pow, mul_pow,
    ← mul_add, sin_sq_add_cos_sq, mul_one, sqrt_sq joins.radius_nonneg]

theorem realPoint_count (joins : helix.Joins start target centre) {count : Nat}
    (positive : 0 < count) : helix.realPoint start count count = target := by
  have hcount : (count : ℝ) ≠ 0 := Nat.cast_ne_zero.2 positive.ne'
  obtain ⟨hfirst, hsecond, hacross⟩ := joins.get_realPoint count count
  have hradius := joins.targetRadius
  obtain ⟨hsin, hcos⟩ := joins.toTarget
  rw [Plane.distance] at hradius
  rw [hradius] at hsin hcos
  rw [div_mul_cancel₀ _ hcount, hsin] at hfirst
  rw [div_mul_cancel₀ _ hcount, hcos] at hsecond
  rw [div_mul_cancel₀ _ hcount, joins.depth] at hacross
  refine Point.ext_get fun axis => ?_
  rcases Plane.mem_axes joins.distinct axis with rfl | rfl | rfl
  · linarith
  · linarith
  · linarith

end Helix.Joins

/-! ## Solved arcs -/

theorem arcAround_of_bearings {start target offset : Point ℝ} {plane : Plane} {direction : Turn}
    {startAngle endAngle : ℝ}
    (hstart : bearing (.real (-offset.get plane.first)) (.real (-offset.get plane.second)) =
      Exact.real startAngle)
    (hend : bearing
        (.real (target.get plane.first - offset.get plane.first - start.get plane.first))
        (.real (target.get plane.second - offset.get plane.second - start.get plane.second)) =
      Exact.real endAngle) :
    arcAround start.exact target.exact offset.exact plane direction =
      ⟨offset.exact, Helix.exact
        { startBearing := startAngle
          travel := travelBetween startAngle endAngle direction
          radius := √(offset.get plane.first ^ 2 + offset.get plane.second ^ 2)
          depth := target.get plane.across - start.get plane.across
          plane }⟩ := by
  simp only [arcAround, Point.get_exact, Exact.neg_real, Exact.real_sub, hstart, hend,
    Exact.scalar_less, fullTurn_exact, Exact.real_add, Exact.scalar_hypot, Helix.exact,
    travelBetween]
  congr 2
  split_ifs <;> simp

theorem Plane.distance_pos {plane : Plane} {left right : Point ℝ}
    (h : 0 < plane.distance left right) :
    left.get plane.first - right.get plane.first ≠ 0 ∨
      left.get plane.second - right.get plane.second ≠ 0 := by
  by_contra hboth
  obtain ⟨hfirst, hsecond⟩ := not_or.1 hboth
  rw [Plane.distance, not_not.1 hfirst, not_not.1 hsecond] at h
  simp at h

theorem exists_bearings {start target offset : Point ℝ} {plane : Plane}
    (apart : 0 < plane.distance start (start.translate offset))
    (targetApart : 0 < plane.distance target (start.translate offset)) :
    let centre := start.translate offset
    ∃ startAngle endAngle,
      (bearing (.real (-offset.get plane.first)) (.real (-offset.get plane.second)) =
          Exact.real startAngle ∧
        PointsAlong startAngle (start.get plane.first - centre.get plane.first)
          (start.get plane.second - centre.get plane.second) ∧
        startAngle ∈ Set.Ico (-π) π) ∧
      (bearing
          (.real (target.get plane.first - offset.get plane.first - start.get plane.first))
          (.real (target.get plane.second - offset.get plane.second - start.get plane.second)) =
          Exact.real endAngle ∧
        PointsAlong endAngle (target.get plane.first - centre.get plane.first)
          (target.get plane.second - centre.get plane.second) ∧
        endAngle ∈ Set.Ico (-π) π) := by
  intro centre
  have hstartWay : ∀ axis, -offset.get axis = start.get axis - centre.get axis := fun axis => by
    rw [Point.get_translate]
    ring
  have hendWay : ∀ axis, target.get axis - offset.get axis - start.get axis =
      target.get axis - centre.get axis := fun axis => by
    rw [Point.get_translate]
    ring
  have hstartNonzero := Plane.distance_pos apart
  have hendNonzero := Plane.distance_pos targetApart
  obtain ⟨startAngle, hstart, hstartAlong⟩ := bearing_pointsAlong hstartNonzero
  obtain ⟨endAngle, hend, hendAlong⟩ := bearing_pointsAlong hendNonzero
  simp only [hstartWay, hendWay]
  exact ⟨startAngle, endAngle, ⟨hstart, hstartAlong, bearing_mem_Ico hstartNonzero hstart⟩,
    hend, hendAlong, bearing_mem_Ico hendNonzero hend⟩

theorem arcAround_exact {start target offset : Point ℝ} {plane : Plane} (direction : Turn)
    (distinct : plane.axes.Nodup) (apart : 0 < plane.distance start (start.translate offset))
    (same : plane.distance target (start.translate offset) =
      plane.distance start (start.translate offset)) :
    ∃ helix : Helix ℝ, helix.plane = plane ∧
      helix.Joins start target (start.translate offset) ∧
      arcAround start.exact target.exact offset.exact plane direction =
        ⟨offset.exact, helix.exact⟩ := by
  have hlength : √(offset.get plane.first ^ 2 + offset.get plane.second ^ 2) =
      plane.distance start (start.translate offset) := by
    rw [Plane.distance, Point.get_translate, Point.get_translate]
    congr 1
    ring
  obtain ⟨startAngle, endAngle, ⟨hstartBearing, hstartAlong, -⟩, hendBearing, hendAlong, -⟩ :=
    exists_bearings apart (apart.trans_eq same.symm)
  -- the travel misses the bearing of the target by whole turns only
  obtain ⟨turns, hturns⟩ := add_travelBetween startAngle endAngle direction
  refine ⟨_, rfl, ?_, arcAround_of_bearings hstartBearing hendBearing⟩
  exact
    { distinct
      fromStart := hstartAlong
      toTarget := by
        rw [hturns]
        exact hendAlong.add_int_mul_two_pi turns
      startRadius := hlength.symm
      targetRadius := same.trans hlength.symm
      depth := rfl }

/-! ## Chords -/

/-- The points lie on the circle around a centre that a start lies on, at equal steps across the
plane, and the last of them is the target. -/
structure TraceCircle (plane : Plane) (start target centre : Point ℝ) (ends : List (Point Exact)) :
    Prop where
  nonempty : 0 < ends.length
  point : ∀ index < ends.length, ∃ point : Point ℝ, ends[index]? = some point.exact ∧
    plane.distance point centre = plane.distance start centre ∧
    point.get plane.across = start.get plane.across +
      (target.get plane.across - start.get plane.across) / ends.length * (index + 1 : ℕ) ∧
    (index + 1 = ends.length → point = target)

theorem getElem?_chordEnds {α : Type} [Scalar α] (helix : Helix α) (start : Point α) (reach : α)
    {index : Nat} (h : index < helix.chordCount reach) :
    (helix.chordEnds start reach)[index]? =
      some (helix.pointAt start (helix.chordCount reach) (index + 1)) := by
  simp [Helix.chordEnds, Helix.firstChordEnds, h]

theorem Helix.Joins.traceCircle {helix : Helix ℝ} {start target centre : Point ℝ}
    (joins : helix.Joins start target centre) (reach : Exact) :
    TraceCircle helix.plane start target centre (helix.exact.chordEnds start.exact reach) := by
  have hpositive := helix.exact.chordCount_pos reach
  constructor
  · rwa [Helix.length_chordEnds]
  · rw [Helix.length_chordEnds]
    intro index hindex
    refine ⟨helix.realPoint start (helix.exact.chordCount reach) (index + 1), ?_, ?_, ?_, ?_⟩
    · rw [getElem?_chordEnds _ _ _ hindex, pointAt_exact _ _ hpositive]
    · rw [joins.distance_realPoint, joins.startRadius]
    · rw [(joins.get_realPoint _ _).2.2, joins.depth]
    · intro hlast
      rw [hlast]
      exact joins.realPoint_count hpositive

theorem centreByRadius_distance {start target : Point ℝ} {radius : ℝ} {plane : Plane}
    {direction : Turn} {centre : Point Exact} (distinct : plane.axes.Nodup)
    (solved : centreByRadius start.exact target.exact (.real radius) plane direction =
      .ok centre) :
    ∃ offset : Point ℝ, centre = offset.exact ∧ 0 < |radius| ∧
      plane.distance start (start.translate offset) = |radius| ∧
      plane.distance target (start.translate offset) = |radius| := by
  obtain ⟨offset, hoffset, hradius, hstart, htarget⟩ :=
    centreByRadius_exact (Plane.axes_ne distinct).1 solved
  refine ⟨offset, hoffset, abs_pos.2 (pow_ne_zero_iff two_ne_zero |>.1 hradius.ne'), ?_, ?_⟩
  · rw [Plane.distance, ← sqrt_sq_eq_abs, ← hstart, Point.get_translate, Point.get_translate]
    congr 1
    ring
  · rw [Plane.distance, ← sqrt_sq_eq_abs, ← htarget, Point.get_translate, Point.get_translate]
    congr 1
    ring

theorem arcBetween_centre {start target offset : Point ℝ} {radius : Option ℝ} {plane : Plane}
    {direction : Turn} {arc : CentredArc Exact} (distinct : plane.axes.Nodup)
    (centred : radius = none → 0 < plane.distance start (start.translate offset) ∧
      plane.distance target (start.translate offset) =
        plane.distance start (start.translate offset))
    (solved : arcBetween start.exact target.exact offset.exact (radius.map .real) plane direction =
      .ok arc) :
    ∃ way : Point ℝ, arc.offset = way.exact ∧ (radius = none → way = offset) ∧
      (∀ r, radius = some r → plane.distance start (start.translate way) = |r|) ∧
      0 < plane.distance start (start.translate way) ∧
      plane.distance target (start.translate way) =
        plane.distance start (start.translate way) := by
  obtain ⟨-, hway⟩ := arcBetween_ok solved
  cases radius with
  | none =>
      rcases hway with ⟨-, hoffset⟩ | ⟨r, hnone, -⟩
      · exact ⟨offset, hoffset, fun _ => rfl, by simp, centred rfl⟩
      · contradiction
  | some r =>
      rcases hway with ⟨hsome, -⟩ | ⟨_, hsome, hsolved⟩
      · contradiction
      · obtain rfl := Option.some.inj hsome
        obtain ⟨way, hoffset, hpositive, hstart, htarget⟩ :=
          centreByRadius_distance distinct hsolved
        refine ⟨way, hoffset, by simp, ?_, hstart ▸ hpositive, htarget.trans hstart.symm⟩
        intro radius hradius
        rw [← Option.some.inj hradius, hstart]

/-- In exact arithmetic an arc that is solved stays on its circle and ends at its target, into
however many chords it is cut.  An arc by its offset is always solved, and needs a centre as far
from its start as from its target; an arc by its radius is solved only around such a centre. -/
theorem arcBetween_traceCircle {start target offset : Point ℝ} {radius : Option ℝ} {plane : Plane}
    (direction : Turn) (distinct : plane.axes.Nodup)
    (centred : radius = none → 0 < plane.distance start (start.translate offset) ∧
      plane.distance target (start.translate offset) =
        plane.distance start (start.translate offset)) :
    let solved :=
      arcBetween start.exact target.exact offset.exact (radius.map .real) plane direction
    (radius = none → ∃ arc, solved = .ok arc) ∧
      ∀ arc, solved = .ok arc →
        ∃ way : Point ℝ, arc.offset = way.exact ∧ (radius = none → way = offset) ∧
          (∀ r, radius = some r → plane.distance start (start.translate way) = |r|) ∧
          0 < plane.distance start (start.translate way) ∧
          ∀ reach : Exact, TraceCircle plane start target (start.translate way)
            (arc.helix.chordEnds start.exact reach) := by
  intro solved
  constructor
  · rintro rfl
    exact ⟨_, rfl⟩
  · intro arc harc
    obtain ⟨way, hoffset, hnone, hsome, hapart, hsame⟩ := arcBetween_centre distinct centred harc
    obtain ⟨helix, hplane, hjoins, hhelix⟩ := arcAround_exact direction distinct hapart hsame
    refine ⟨way, hoffset, hnone, hsome, hapart, fun reach => ?_⟩
    rw [(arcBetween_ok harc).1, hoffset, hhelix, ← hplane]
    exact hjoins.traceCircle reach

theorem arcBetween_traceCircle_quarter :
    let start : Point ℝ := ⟨1, 0, 0⟩
    let target : Point ℝ := ⟨0, 1, 5⟩
    let offset : Point ℝ := ⟨-1, 0, 0⟩
    Plane.xy.axes.Nodup ∧
      (0 < Plane.xy.distance start (start.translate offset) ∧
        Plane.xy.distance target (start.translate offset) =
          Plane.xy.distance start (start.translate offset)) ∧
      ∃ arc, arcBetween start.exact target.exact offset.exact none .xy .clockwise = .ok arc ∧
        ∀ reach : Exact, TraceCircle .xy start target (start.translate offset)
          (arc.helix.chordEnds start.exact reach) := by
  intro start target offset
  have hdistinct : Plane.xy.axes.Nodup := by decide
  have hcentred : 0 < Plane.xy.distance start (start.translate offset) ∧
      Plane.xy.distance target (start.translate offset) =
        Plane.xy.distance start (start.translate offset) := by
    norm_num [Plane.distance, Plane.xy, Point.translate, Point.get, start, target, offset]
  obtain ⟨hsolved, htrace⟩ := arcBetween_traceCircle .clockwise hdistinct
    fun _ : (none : Option ℝ) = none => hcentred
  obtain ⟨arc, harc⟩ := hsolved rfl
  obtain ⟨way, -, hway, -, -, hcircle⟩ := htrace arc harc
  rw [hway rfl] at hcircle
  exact ⟨hdistinct, hcentred, arc, harc, hcircle⟩

end Gcode
