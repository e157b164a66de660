import Gcode.Proofs.Double.Bearing
import Gcode.Proofs.Geometry.Angle

/-!
# Mirrored arcs

An arc by its offset, mirrored in the first axis of its plane and turned the other way, has the same
radius and the same depth, to the last bit.  In exact arithmetic it travels exactly as far the other
way, with one exception: where both ends lie in one direction from the centre, as those of a closed
arc do, the clockwise arc does not move and the counterclockwise one makes a whole turn.  In doubles
the two travels are rounded differently.
-/

namespace Gcode

open Real

/-! ## Mirror images -/

def Point.mirrored {α : Type} [Neg α] (plane : Plane) (point : Point α) : Point α :=
  point.set plane.first (-point.get plane.first)

theorem Point.get_mirrored_first {α : Type} [Neg α] (plane : Plane) (point : Point α) :
    (point.mirrored plane).get plane.first = -point.get plane.first :=
  Point.get_set_self ..

theorem Point.get_mirrored_of_ne {α : Type} [Neg α] {plane : Plane} {axis : Axis}
    (h : axis ≠ plane.first) (point : Point α) :
    (point.mirrored plane).get axis = point.get axis :=
  Point.get_set_of_ne _ h _

section

variable {plane : Plane} (point start way : Point ℝ)

theorem sub_mirrored_first (plane : Plane) :
    (point.mirrored plane).get plane.first -
        ((start.mirrored plane).translate (way.mirrored plane)).get plane.first =
      -(point.get plane.first - (start.translate way).get plane.first) := by
  simp only [Point.get_translate, Point.get_mirrored_first]
  ring

variable (distinct : plane.axes.Nodup)
include distinct

theorem sub_mirrored_second :
    (point.mirrored plane).get plane.second -
        ((start.mirrored plane).translate (way.mirrored plane)).get plane.second =
      point.get plane.second - (start.translate way).get plane.second := by
  have hsecond := (Plane.axes_ne distinct).1.symm
  rw [Point.get_translate, Point.get_translate, Point.get_mirrored_of_ne hsecond,
    Point.get_mirrored_of_ne hsecond, Point.get_mirrored_of_ne hsecond]

theorem distance_mirrored :
    plane.distance (point.mirrored plane)
        ((start.mirrored plane).translate (way.mirrored plane)) =
      plane.distance point (start.translate way) := by
  rw [Plane.distance, sub_mirrored_first, sub_mirrored_second _ _ _ distinct, neg_sq]
  rfl

end

/-! ## Opposite angles -/

theorem exists_turns_of_mirrored {angle other x y : ℝ} (h : IsAngleOf angle x y)
    (mirrored : IsAngleOf other (-x) y) : ∃ turns : ℤ, angle + other = turns * (2 * π) := by
  have hsine : sin other = -sin angle := by
    rw [mirrored.sine, h.sine, neg_sq, neg_div]
  have hcosine : cos other = cos angle := by
    rw [mirrored.cosine, h.cosine, neg_sq]
  have hcos : cos (angle + other) = 1 := by
    rw [cos_add, hsine, hcosine, mul_neg, sub_neg_eq_add, ← sq, ← sq, cos_sq_add_sin_sq]
  obtain ⟨turns, hturns⟩ := (cos_eq_one_iff _).1 hcos
  exact ⟨turns, hturns.symm⟩

theorem lt_of_turns_lt {fewer more : ℤ} (h : fewer * (2 * π) < more * (2 * π)) : fewer < more :=
  Int.cast_lt.1 (lt_of_mul_lt_mul_right h two_pi_pos.le)

namespace Turn

variable {direction : Turn} {travel back : ℝ}

theorem exists_turns_alignedTravel (direction : Turn) :
    ∃ turns : ℤ, direction.alignedTravel = turns * (2 * π) := by
  cases direction with
  | clockwise => exact ⟨0, by simp [alignedTravel]⟩
  | counterclockwise => exact ⟨-1, by simp [alignedTravel]⟩

theorem alignedTravel_add_opposite (direction : Turn) :
    direction.alignedTravel + direction.opposite.alignedTravel = -(2 * π) := by
  cases direction <;> simp [alignedTravel, opposite]

theorem covers_iff :
    direction.Covers travel ↔
      direction.alignedTravel ≤ travel ∧ travel < direction.alignedTravel + 2 * π := by
  cases direction <;> simp [Covers, alignedTravel]

theorem Covers.eq_alignedTravel (covers : direction.Covers travel)
    (whole : ∃ turns : ℤ, travel = turns * (2 * π)) : travel = direction.alignedTravel := by
  obtain ⟨turns, rfl⟩ := whole
  obtain ⟨least, hleast⟩ := direction.exists_turns_alignedTravel
  obtain ⟨hlow, hhigh⟩ := covers_iff.1 covers
  rw [hleast] at hlow hhigh ⊢
  have hbelow : least - 1 < turns := lt_of_turns_lt (by push_cast; linarith [two_pi_pos])
  have habove : turns < least + 1 := lt_of_turns_lt (by push_cast; linarith)
  obtain rfl : turns = least := by omega
  rfl

theorem Covers.eq_neg_of_turns (covers : direction.Covers travel)
    (coversBack : direction.opposite.Covers back)
    (cancel : ∃ turns : ℤ, travel + back = turns * (2 * π))
    (moves : travel ≠ direction.alignedTravel) : back = -travel := by
  obtain ⟨turns, hturns⟩ := cancel
  obtain ⟨hlow, hhigh⟩ := covers_iff.1 covers
  obtain ⟨hbackLow, hbackHigh⟩ := covers_iff.1 coversBack
  have hopposite := direction.alignedTravel_add_opposite
  have hbelow : -2 < turns := lt_of_turns_lt (by push_cast; linarith [two_pi_pos])
  have habove : turns < 1 := lt_of_turns_lt (by push_cast; linarith)
  obtain rfl | rfl : turns = -1 ∨ turns = 0 := by omega
  · push_cast at hturns
    exact absurd (le_antisymm (by linarith) hlow) moves
  · rw [Int.cast_zero, zero_mul] at hturns
    linarith

end Turn

/-! ## Ends in one direction from the centre -/

/-- Seen along the axis across the plane, both ends lie in one direction from the centre. -/
def Plane.Aligned (plane : Plane) (start target centre : Point ℝ) : Prop :=
  ∃ factor : ℝ, 0 < factor ∧
    target.get plane.first - centre.get plane.first =
      factor * (start.get plane.first - centre.get plane.first) ∧
    target.get plane.second - centre.get plane.second =
      factor * (start.get plane.second - centre.get plane.second)

theorem Plane.aligned_self (plane : Plane) (start centre : Point ℝ) :
    plane.Aligned start start centre :=
  ⟨1, one_pos, (one_mul _).symm, (one_mul _).symm⟩

theorem IsAngleOf.scale {angle x y factor : ℝ} (h : IsAngleOf angle x y) (positive : 0 < factor) :
    IsAngleOf angle (factor * x) (factor * y) := by
  have hlength : √((factor * x) ^ 2 + (factor * y) ^ 2) = factor * √(x ^ 2 + y ^ 2) := by
    rw [mul_pow, mul_pow, ← mul_add, sqrt_mul (sq_nonneg factor), sqrt_sq positive.le]
  refine ⟨h.range, ?_, ?_⟩
  · rw [hlength, mul_div_mul_left _ _ positive.ne', h.sine]
  · rw [hlength, mul_div_mul_left _ _ positive.ne', h.cosine]

theorem IsAngleOf.eq_scale {angle x y first second : ℝ} (h : IsAngleOf angle x y)
    (hother : IsAngleOf angle first second) (nonzero : x ≠ 0 ∨ y ≠ 0)
    (otherNonzero : first ≠ 0 ∨ second ≠ 0) :
    ∃ factor : ℝ, 0 < factor ∧ first = factor * x ∧ second = factor * y := by
  have hlength := length_pos nonzero
  have hotherLength := length_pos otherNonzero
  have hsine := h.sine.symm.trans hother.sine
  have hcosine := h.cosine.symm.trans hother.cosine
  rw [div_eq_div_iff hlength.ne' hotherLength.ne'] at hsine hcosine
  refine ⟨_, div_pos hotherLength hlength, ?_, ?_⟩
  · rw [div_mul_eq_mul_div, eq_div_iff hlength.ne']
    linarith
  · rw [div_mul_eq_mul_div, eq_div_iff hlength.ne']
    linarith

namespace Helix.Spans

variable {helix : Helix ℝ} {direction : Turn} {start target centre : Point ℝ}

theorem travel_eq_alignedTravel_iff (spans : helix.Spans direction start target centre)
    (apart : helix.plane.Apart start target centre) :
    helix.travel = direction.alignedTravel ↔ helix.plane.Aligned start target centre := by
  obtain ⟨angle, turns, hangle, hturns⟩ := spans.toTarget
  constructor
  · intro htravel
    obtain ⟨whole, hwhole⟩ := direction.exists_turns_alignedTravel
    have hsame : helix.startBearing = angle + (turns - whole : ℤ) * (2 * π) := by
      push_cast
      linarith
    obtain ⟨hlow, hhigh⟩ := spans.fromStart.range
    obtain ⟨hangleLow, hangleHigh⟩ := hangle.range
    obtain rfl : helix.startBearing = angle := by
      refine eq_of_sin_eq_of_cos_eq (abs_lt.2 ⟨by linarith, by linarith⟩) ?_ ?_
      · rw [hsame, sin_add_int_mul_two_pi]
      · rw [hsame, cos_add_int_mul_two_pi]
    exact spans.fromStart.eq_scale hangle (Plane.distance_pos apart.start)
      (Plane.distance_pos apart.target)
  · rintro ⟨factor, hpositive, hfirst, hsecond⟩
    rw [hfirst, hsecond] at hangle
    have hsame := hangle.unique (spans.fromStart.scale hpositive)
    exact spans.covers.eq_alignedTravel ⟨turns, by linarith⟩

end Helix.Spans

/-! ## Mirrored arcs -/

/-- The helix is as wide and as deep as another.  It leads back as far as the other leads forth,
unless the ends of that one lie in one direction from its centre. -/
structure Helix.Mirrors (mirrored helix : Helix ℝ) (direction : Turn)
    (start target centre : Point ℝ) : Prop where
  radius : mirrored.radius = helix.radius
  depth : mirrored.depth = helix.depth
  travel : ¬ helix.plane.Aligned start target centre → mirrored.travel = -helix.travel
  aligned : helix.plane.Aligned start target centre →
    helix.travel = direction.alignedTravel ∧ mirrored.travel = direction.opposite.alignedTravel

theorem Helix.Spans.mirrored {helix mirrored : Helix ℝ} {direction : Turn}
    {start target way : Point ℝ} (distinct : helix.plane.axes.Nodup)
    (apart : helix.plane.Apart start target (start.translate way))
    (samePlane : mirrored.plane = helix.plane)
    (spans : helix.Spans direction start target (start.translate way))
    (spansBack : mirrored.Spans direction.opposite (start.mirrored helix.plane)
      (target.mirrored helix.plane)
      ((start.mirrored helix.plane).translate (way.mirrored helix.plane))) :
    (¬ helix.plane.Aligned start target (start.translate way) →
        mirrored.travel = -helix.travel) ∧
      (helix.plane.Aligned start target (start.translate way) →
        helix.travel = direction.alignedTravel ∧
          mirrored.travel = direction.opposite.alignedTravel) := by
  have hstart := spansBack.fromStart
  obtain ⟨angle, turns, hangle, hturns⟩ := spans.toTarget
  obtain ⟨angleBack, turnsBack, hangleBack, hturnsBack⟩ := spansBack.toTarget
  rw [samePlane, sub_mirrored_first, sub_mirrored_second _ _ _ distinct] at hstart hangleBack
  -- the angles of both ends are opposite, so the travels cancel up to whole turns
  obtain ⟨first, hfirst⟩ := exists_turns_of_mirrored spans.fromStart hstart
  obtain ⟨last, hlast⟩ := exists_turns_of_mirrored hangle hangleBack
  have hcancel : helix.travel + mirrored.travel =
      (last + turns + turnsBack - first : ℤ) * (2 * π) := by
    push_cast
    linarith
  have haligned := spans.travel_eq_alignedTravel_iff apart
  constructor
  · intro hnot
    exact spans.covers.eq_neg_of_turns spansBack.covers ⟨_, hcancel⟩ (mt haligned.1 hnot)
  · intro hends
    have htravel := haligned.2 hends
    obtain ⟨least, hleast⟩ := direction.exists_turns_alignedTravel
    refine ⟨htravel, spansBack.covers.eq_alignedTravel
      ⟨last + turns + turnsBack - first - least, ?_⟩⟩
    push_cast at hcancel ⊢
    linarith

section

variable {start target way : Point ℝ} {plane : Plane}

theorem radius_of_arcAround {direction : Turn} {helix : Helix ℝ}
    (solved : arcAround start.exact target.exact way.exact plane direction =
      ⟨way.exact, helix.exact⟩) :
    helix.radius = √(way.get plane.first ^ 2 + way.get plane.second ^ 2) := by
  have hradius := congrArg (fun arc => arc.helix.radius) solved
  simp only [arcAround, Point.get_exact, Exact.scalar_hypot, Helix.exact, Exact.real_inj] at hradius
  exact hradius.symm

theorem depth_of_arcAround {direction : Turn} {helix : Helix ℝ}
    (solved : arcAround start.exact target.exact way.exact plane direction =
      ⟨way.exact, helix.exact⟩) :
    helix.depth = target.get plane.across - start.get plane.across := by
  have hdepth := congrArg (fun arc => arc.helix.depth) solved
  simp only [arcAround, Point.get_exact, Exact.real_sub, Helix.exact, Exact.real_inj] at hdepth
  exact hdepth.symm

theorem arcAround_mirrored (distinct : plane.axes.Nodup)
    (apart : plane.Apart start target (start.translate way)) (direction : Turn) :
    ∃ helix mirrored : Helix ℝ, helix.plane = plane ∧
      arcAround start.exact target.exact way.exact plane direction =
        ⟨way.exact, helix.exact⟩ ∧
      arcAround (start.mirrored plane).exact (target.mirrored plane).exact
          (way.mirrored plane).exact plane direction.opposite =
        ⟨(way.mirrored plane).exact, mirrored.exact⟩ ∧
      mirrored.Mirrors helix direction start target (start.translate way) := by
  obtain ⟨-, hacross, -⟩ := Plane.axes_ne distinct
  have hsecond := (Plane.axes_ne distinct).1.symm
  have hapartBack : plane.Apart (start.mirrored plane) (target.mirrored plane)
      ((start.mirrored plane).translate (way.mirrored plane)) :=
    ⟨(distance_mirrored start start way distinct).symm ▸ apart.start,
      (distance_mirrored target start way distinct).symm ▸ apart.target⟩
  obtain ⟨helices, hhelices, -⟩ := arcAround_spans apart
  obtain ⟨mirrors, hmirrors, -⟩ := arcAround_spans hapartBack
  obtain ⟨hplane, hsolved, hspans⟩ := hhelices direction
  obtain ⟨hplaneBack, hsolvedBack, hspansBack⟩ := hmirrors direction.opposite
  generalize helices direction = helix at hplane hsolved hspans
  generalize mirrors direction.opposite = mirrored at hplaneBack hsolvedBack hspansBack
  subst hplane
  obtain ⟨htravel, haligned⟩ := hspans.mirrored distinct apart hplaneBack hspansBack
  refine ⟨helix, mirrored, rfl, hsolved, hsolvedBack, ?_, ?_, htravel, haligned⟩
  · rw [radius_of_arcAround hsolved, radius_of_arcAround hsolvedBack, Point.get_mirrored_first,
      Point.get_mirrored_of_ne hsecond, neg_sq]
  · rw [depth_of_arcAround hsolved, depth_of_arcAround hsolvedBack,
      Point.get_mirrored_of_ne hacross.symm, Point.get_mirrored_of_ne hacross.symm]

end

/-! ## Mirrored arcs of doubles -/

theorem hypotenuse_neg (x y : Float) : hypotenuse (-x) y = hypotenuse x y := by
  rw [hypotenuse, Double.abs_negated]
  rfl

theorem radius_mirrored {plane : Plane} (distinct : plane.axes.Nodup) (direction turned : Turn)
    (start target offset : Point Float) :
    (arcAround (start.mirrored plane) (target.mirrored plane) (offset.mirrored plane) plane
        turned).helix.radius =
      (arcAround start target offset plane direction).helix.radius := by
  change hypotenuse ((offset.mirrored plane).get plane.first)
      ((offset.mirrored plane).get plane.second) =
    hypotenuse (offset.get plane.first) (offset.get plane.second)
  rw [Point.get_mirrored_first, hypotenuse_neg,
    Point.get_mirrored_of_ne (Plane.axes_ne distinct).1.symm]

theorem depth_mirrored {plane : Plane} (distinct : plane.axes.Nodup) (direction turned : Turn)
    (start target offset : Point Float) :
    (arcAround (start.mirrored plane) (target.mirrored plane) (offset.mirrored plane) plane
        turned).helix.depth =
      (arcAround start target offset plane direction).helix.depth := by
  obtain ⟨-, hacross, -⟩ := Plane.axes_ne distinct
  change (target.mirrored plane).get plane.across - (start.mirrored plane).get plane.across =
    target.get plane.across - start.get plane.across
  rw [Point.get_mirrored_of_ne hacross.symm, Point.get_mirrored_of_ne hacross.symm]

/-- An arc by its offset is solved, and so is its mirror image in the first axis of its plane,
turned the other way.  Both have one radius and one depth in doubles.  In exact arithmetic they also
travel exactly as far in opposite directions, unless both ends lie in one direction from the centre,
as in a closed arc: then the clockwise one of the two stands still and the counterclockwise one
makes a whole turn. -/
theorem arcBetween_mirrored {plane : Plane} (distinct : plane.axes.Nodup) (direction : Turn) :
    (∀ start target offset : Point Float, ∃ helix mirrored : Helix Float,
      arcBetween start target offset none plane direction = .ok ⟨offset, helix⟩ ∧
        arcBetween (start.mirrored plane) (target.mirrored plane) (offset.mirrored plane) none plane
            direction.opposite =
          .ok ⟨offset.mirrored plane, mirrored⟩ ∧
        mirrored.radius = helix.radius ∧ mirrored.depth = helix.depth) ∧
    ∀ start target offset : Point ℝ, plane.Apart start target (start.translate offset) →
      ∃ helix mirrored : Helix ℝ, helix.plane = plane ∧
        arcBetween start.exact target.exact offset.exact none plane direction =
          .ok ⟨offset.exact, helix.exact⟩ ∧
        arcBetween (start.mirrored plane).exact (target.mirrored plane).exact
            (offset.mirrored plane).exact none plane direction.opposite =
          .ok ⟨(offset.mirrored plane).exact, mirrored.exact⟩ ∧
        mirrored.Mirrors helix direction start target (start.translate offset) ∧
        (target = start → helix.travel = direction.alignedTravel ∧
          mirrored.travel = direction.opposite.alignedTravel) := by
  constructor
  · intro start target offset
    exact ⟨_, _, rfl, rfl, radius_mirrored distinct _ _ start target offset,
      depth_mirrored distinct _ _ start target offset⟩
  · intro start target offset apart
    obtain ⟨helix, mirrored, rfl, hsolved, hsolvedBack, hmirrors⟩ :=
      arcAround_mirrored distinct apart direction
    refine ⟨helix, mirrored, rfl, congrArg Except.ok hsolved, congrArg Except.ok hsolvedBack,
      hmirrors, ?_⟩
    rintro rfl
    exact hmirrors.aligned (Plane.aligned_self ..)

theorem arcBetween_mirrored_quarter :
    let start : Point ℝ := ⟨1, 0, 0⟩
    let target : Point ℝ := ⟨0, 1, 5⟩
    let offset : Point ℝ := ⟨-1, 0, 0⟩
    Plane.xy.axes.Nodup ∧ Plane.xy.Apart start target (start.translate offset) ∧
      ¬ Plane.xy.Aligned start target (start.translate offset) ∧
      ∃ helix mirrored : Helix ℝ,
        arcBetween start.exact target.exact offset.exact none .xy .clockwise =
          .ok ⟨offset.exact, helix.exact⟩ ∧
        arcBetween (start.mirrored .xy).exact (target.mirrored .xy).exact
            (offset.mirrored .xy).exact none .xy .counterclockwise =
          .ok ⟨(offset.mirrored .xy).exact, mirrored.exact⟩ ∧
        mirrored.travel = -helix.travel := by
  intro start target offset
  have hdistinct : Plane.xy.axes.Nodup := by decide
  have hapart : Plane.xy.Apart start target (start.translate offset) := by
    constructor <;>
      norm_num [Plane.distance, Plane.xy, Point.translate, Point.get, start, target, offset]
  have hends : ¬ Plane.xy.Aligned start target (start.translate offset) := by
    rintro ⟨factor, hpositive, hfirst, -⟩
    simp [Plane.xy, Point.translate, Point.get, start, target, offset] at hfirst
    exact hpositive.ne hfirst
  obtain ⟨helix, mirrored, hplane, hsolved, hsolvedBack, hmirrors, -⟩ :=
    (arcBetween_mirrored hdistinct .clockwise).2 start target offset hapart
  exact ⟨hdistinct, hapart, hends, helix, mirrored, hsolved, hsolvedBack,
    hmirrors.travel (hplane ▸ hends)⟩

theorem sub_self_ne {angle turn : Float} (number : turn.isNaN = false) (moves : turn ≠ 0) :
    angle - angle ≠ turn := by
  rintro rfl
  obtain h | h := Double.sub_self angle
  · exact Bool.false_ne_true (number.symm.trans h)
  · exact moves h

theorem travelBetween_self (angle : Float) :
    Turn.clockwise.travelBetween angle angle = angle - angle := by
  have hless : Scalar.less angle angle = false := decide_eq_false (Double.not_lt_self angle)
  simp [Turn.travelBetween, hless]

theorem travel_of_bearings (start target offset : Point Float) (plane : Plane) {first last : Float}
    (atStart : (Arm.toStart offset plane).bearing = first)
    (atTarget : (Arm.toEnd start target offset plane).bearing = last) (direction : Turn) :
    (arcAround start target offset plane direction).helix.travel =
      direction.travelBetween first last := by
  rw [travel_arcAround, atStart, atTarget]

theorem bearing_of_pos {x y quotient : Float} (positive : 0 < y) (h : x / y.abs = quotient) :
    bearing x y = Float.atan quotient := by
  subst h
  exact if_pos (decide_eq_true positive)

/-- In doubles a closed arc clockwise is no full turn, whatever the arctangent.  With the
arctangents of one half and its opposite, an arc that is not closed and its mirror image are not
equally long: one travel is rounded once more than the other. -/
theorem arcBetween_unmirrored :
    (∃ helix : Helix Float,
      arcBetween ⟨0, 0, 0⟩ ⟨0, 0, 0⟩ ⟨10, 0, 0⟩ none .xy .clockwise = .ok ⟨⟨10, 0, 0⟩, helix⟩ ∧
        helix.travel ≠ fullTurn ∧ helix.travel ≠ -fullTurn) ∧
    (Float.atan 0.5 = 0.4636476090008061 → Float.atan (-0.5) = -0.4636476090008061 →
      let start : Point Float := ⟨0, 0, 0⟩
      let target : Point Float := ⟨2, 0, 0⟩
      let offset : Point Float := ⟨1, -2, 0⟩
      ∃ helix mirrored : Helix Float,
        arcBetween start target offset none .xy .clockwise = .ok ⟨offset, helix⟩ ∧
        arcBetween (start.mirrored .xy) (target.mirrored .xy) (offset.mirrored .xy) none .xy
            .counterclockwise =
          .ok ⟨offset.mirrored .xy, mirrored⟩ ∧
        helix.travel = 0.9272952180016122 ∧ mirrored.travel = -0.9272952180016123 ∧
        mirrored.travel ≠ -helix.travel) := by
  constructor
  · have htravel : (arcAround (⟨0, 0, 0⟩ : Point Float) ⟨0, 0, 0⟩ ⟨10, 0, 0⟩ .xy
        .clockwise).helix.travel = bearing (-10) (-0) - bearing (-10) (-0) :=
      (travel_of_bearings _ _ _ _ rfl rfl _).trans (travelBetween_self _)
    exact ⟨_, rfl, htravel ▸ sub_self_ne (by decide +kernel) (by decide +kernel),
      htravel ▸ sub_self_ne (by decide +kernel) (by decide +kernel)⟩
  · intro hhalf hopposite
    have hright {x y : Float} (positive : 0 < y) (h : x / y.abs = 0.5) :
        bearing x y = 0.4636476090008061 := (bearing_of_pos positive h).trans hhalf
    have hleft {x y : Float} (positive : 0 < y) (h : x / y.abs = -0.5) :
        bearing x y = -0.4636476090008061 := (bearing_of_pos positive h).trans hopposite
    have hthere := travel_of_bearings ⟨0, 0, 0⟩ ⟨2, 0, 0⟩ ⟨1, -2, 0⟩ .xy
      (hleft (by decide +kernel) (by decide +kernel))
      (hright (by decide +kernel) (by decide +kernel)) .clockwise
    have hback := travel_of_bearings ⟨-0, 0, 0⟩ ⟨-2, 0, 0⟩ ⟨-1, -2, 0⟩ .xy
      (hright (by decide +kernel) (by decide +kernel))
      (hleft (by decide +kernel) (by decide +kernel)) .counterclockwise
    refine ⟨_, _, rfl, rfl, hthere.trans (by decide +kernel), hback.trans (by decide +kernel), ?_⟩
    intro hopposed
    have hequal := hback.symm.trans (hopposed.trans (congrArg Neg.neg hthere))
    revert hequal
    decide +kernel

end Gcode
