import Gcode.Proofs.Geometry.Travel

/-!
# The side of an arc by its radius

Two circles of a given radius join the ends of a chord.  In exact arithmetic the centre of the arc
lies on the right of its chord if the arc turns clockwise and the radius is positive, and each of
the two taken the other way changes the side.  So the arc is at most half a turn for a positive
radius and at least half a turn for a negative one.
-/

namespace Gcode

open Real

def Turn.opposite : Turn → Turn
  | .clockwise => .counterclockwise
  | .counterclockwise => .clockwise

/-! ## Chords that a radius fits -/

structure FitsChord (radius x y : ℝ) : Prop where
  nonzero : 0 < x ^ 2 + y ^ 2
  short : x ^ 2 + y ^ 2 ≤ 4 * radius ^ 2

theorem not_fitsChord_iff {radius x y : ℝ} :
    ¬ FitsChord radius x y ↔ (x = 0 ∧ y = 0) ∨ 4 * radius ^ 2 < x ^ 2 + y ^ 2 := by
  constructor
  · intro hnot
    by_cases hshort : x ^ 2 + y ^ 2 ≤ 4 * radius ^ 2
    · have hzero : ¬ 0 < x ^ 2 + y ^ 2 := fun hnonzero => hnot ⟨hnonzero, hshort⟩
      refine .inl ⟨?_, ?_⟩ <;> nlinarith [sq_nonneg x, sq_nonneg y]
    · exact .inr (not_le.1 hshort)
  · rintro (⟨rfl, rfl⟩ | hlong) fits
    · simpa using fits.nonzero
    · exact absurd fits.short (not_le.2 hlong)

namespace FitsChord

variable {radius x y : ℝ}

theorem radius_ne_zero (fits : FitsChord radius x y) : radius ≠ 0 := by
  rintro rfl
  linarith [fits.nonzero, fits.short]

theorem neg_radius (fits : FitsChord radius x y) : FitsChord (-radius) x y :=
  ⟨fits.nonzero, by rw [neg_sq]; exact fits.short⟩

theorem backwards (fits : FitsChord radius x y) : FitsChord radius (-x) (-y) := by
  obtain ⟨hnonzero, hshort⟩ := fits
  constructor <;> rwa [neg_sq, neg_sq]

end FitsChord

/-! ## The quotient and its sign -/

section

variable (radius x y : ℝ)

theorem realQuotient_nonpos : realQuotient radius x y ≤ 0 :=
  div_nonpos_of_nonpos_of_nonneg (neg_nonpos.2 (sqrt_nonneg _)) (sqrt_nonneg _)

theorem realQuotient_neg_radius : realQuotient (-radius) x y = realQuotient radius x y := by
  simp [realQuotient]

theorem realQuotient_backwards : realQuotient radius (-x) (-y) = realQuotient radius x y := by
  simp [realQuotient]

theorem realSignedQuotient_opposite (direction : Turn) :
    realSignedQuotient radius x y direction.opposite =
      -realSignedQuotient radius x y direction := by
  cases direction <;> simp [realSignedQuotient, Turn.opposite] <;> split_ifs <;> simp

theorem realSignedQuotient_backwards (direction : Turn) :
    realSignedQuotient radius (-x) (-y) direction = realSignedQuotient radius x y direction := by
  simp only [realSignedQuotient, realQuotient_backwards]

variable {radius}

theorem realSignedQuotient_neg_radius (nonzero : radius ≠ 0) (direction : Turn) :
    realSignedQuotient (-radius) x y direction = -realSignedQuotient radius x y direction := by
  simp only [realSignedQuotient, realQuotient_neg_radius, neg_lt_zero]
  rcases lt_or_gt_of_ne nonzero with hnegative | hpositive
  · rw [if_pos hnegative, if_neg (not_lt.2 hnegative.le), neg_neg]
  · rw [if_pos hpositive, if_neg (not_lt.2 hpositive.le)]

theorem realSignedQuotient_nonpos {direction : Turn}
    (right : direction = .clockwise ∧ 0 < radius ∨ direction = .counterclockwise ∧ radius < 0) :
    realSignedQuotient radius x y direction ≤ 0 := by
  have hquotient := realQuotient_nonpos radius x y
  rcases right with ⟨rfl, hpositive⟩ | ⟨rfl, hnegative⟩
  · simpa [realSignedQuotient, not_lt.2 hpositive.le] using hquotient
  · simpa [realSignedQuotient, hnegative] using hquotient

theorem realSignedQuotient_nonneg {direction : Turn}
    (left : direction = .counterclockwise ∧ 0 < radius ∨ direction = .clockwise ∧ radius < 0) :
    0 ≤ realSignedQuotient radius x y direction := by
  have hquotient := realQuotient_nonpos radius x y
  rcases left with ⟨rfl, hpositive⟩ | ⟨rfl, hnegative⟩
  · simpa [realSignedQuotient, not_lt.2 hpositive.le] using hquotient
  · simpa [realSignedQuotient, hnegative] using hquotient

end

/-! ## The centre -/

noncomputable def wayByRadius (plane : Plane) (start target : Point ℝ) (radius : ℝ)
    (direction : Turn) : Point ℝ :=
  let x := target.get plane.first - start.get plane.first
  let y := target.get plane.second - start.get plane.second
  realCentreBeside plane x y (realSignedQuotient radius x y direction)

def Plane.Fits (plane : Plane) (radius : ℝ) (start target : Point ℝ) : Prop :=
  FitsChord radius (target.get plane.first - start.get plane.first)
    (target.get plane.second - start.get plane.second)

section

variable {start target : Point ℝ} {radius : ℝ} {plane : Plane}

theorem Plane.Fits.backwards (fits : plane.Fits radius start target) :
    plane.Fits radius target start := by
  rw [Plane.Fits, ← neg_sub (target.get plane.first), ← neg_sub (target.get plane.second)]
  exact FitsChord.backwards fits

theorem centreByRadius_of_fits (fits : plane.Fits radius start target) (direction : Turn) :
    centreByRadius start.exact target.exact (.real radius) plane direction =
      .ok (wayByRadius plane start target radius direction).exact := by
  refine centreByRadius_ok_iff.2 ?_
  simp only [Point.get_exact, Exact.real_sub]
  rw [signedQuotient_exact fits.nonzero fits.short, centreBeside_exact]
  exact ⟨(isFinite_chordQuotient_iff ..).2 ⟨fits.nonzero, fits.short⟩, rfl⟩

theorem centreByRadius_isError_iff {direction : Turn} :
    (∃ failure, centreByRadius start.exact target.exact (.real radius) plane direction =
        .error failure) ↔
      ¬ plane.Fits radius start target := by
  constructor
  · rintro ⟨failure, hfailure⟩ fits
    rw [centreByRadius_of_fits fits] at hfailure
    contradiction
  · intro hnot
    cases hsolved : centreByRadius start.exact target.exact (.real radius) plane direction with
    | error failure => exact ⟨failure, rfl⟩
    | ok offset =>
        obtain ⟨hfinite, -⟩ := centreByRadius_ok_iff.1 hsolved
        simp only [Point.get_exact, Exact.real_sub] at hfinite
        obtain ⟨hnonzero, hshort⟩ := (isFinite_chordQuotient_iff ..).1 hfinite
        exact absurd ⟨hnonzero, hshort⟩ hnot

theorem wayByRadius_opposite (nonzero : radius ≠ 0) (direction : Turn) :
    wayByRadius plane start target (-radius) direction.opposite =
      wayByRadius plane start target radius direction := by
  simp only [wayByRadius, realSignedQuotient_opposite, realSignedQuotient_neg_radius _ _ nonzero,
    neg_neg]

variable (distinct : plane.axes.Nodup) (direction : Turn)
include distinct

theorem get_wayByRadius_across :
    (wayByRadius plane start target radius direction).get plane.across = 0 := by
  obtain ⟨-, hfirst, hsecond⟩ := Plane.axes_ne distinct
  rw [wayByRadius, realCentreBeside, Point.get_set_of_ne _ hsecond.symm,
    Point.get_set_of_ne _ hfirst.symm, Point.get_replicate]

theorem get_translate_wayByRadius_back {axis : Axis} (inPlane : axis ≠ plane.across) :
    (target.translate (wayByRadius plane target start radius direction.opposite)).get axis =
      (start.translate (wayByRadius plane start target radius direction)).get axis := by
  have hdistinct := (Plane.axes_ne distinct).1
  simp only [wayByRadius, Point.get_translate, ← neg_sub (target.get plane.first),
    ← neg_sub (target.get plane.second), realSignedQuotient_backwards, realSignedQuotient_opposite]
  rcases Plane.mem_axes distinct axis with rfl | rfl | rfl
  · rw [(get_realCentreBeside hdistinct ..).1, (get_realCentreBeside hdistinct ..).1]
    ring
  · rw [(get_realCentreBeside hdistinct ..).2, (get_realCentreBeside hdistinct ..).2]
    ring
  · exact absurd rfl inPlane

end

/-! ## The side -/

/-- The cross product of the chord from a start to a target and a way from the start.  It is
negative where the way leads to the right of the chord. -/
def Plane.cross (plane : Plane) (start target way : Point ℝ) : ℝ :=
  (target.get plane.first - start.get plane.first) * way.get plane.second -
    (target.get plane.second - start.get plane.second) * way.get plane.first

theorem cross_wayByRadius {plane : Plane} (distinct : plane.axes.Nodup) (start target : Point ℝ)
    (radius : ℝ) (direction : Turn) :
    let x := target.get plane.first - start.get plane.first
    let y := target.get plane.second - start.get plane.second
    plane.cross start target (wayByRadius plane start target radius direction) =
      (x ^ 2 + y ^ 2) / 2 * realSignedQuotient radius x y direction := by
  intro x y
  obtain ⟨hfirst, hsecond⟩ := get_realCentreBeside (Plane.axes_ne distinct).1 x y
    (realSignedQuotient radius x y direction)
  rw [Plane.cross, wayByRadius, hfirst, hsecond]
  ring

namespace Helix.Joins

variable {helix : Helix ℝ} {start target way : Point ℝ} {direction : Turn}
  (joins : helix.Joins start target (start.translate way))
  (covers : direction.Covers helix.travel)
include joins covers

theorem sq_mul_sin_abs_travel :
    helix.radius ^ 2 * sin |helix.travel| =
      if direction = .clockwise then -helix.plane.cross start target way
      else helix.plane.cross start target way := by
  have hcross : helix.plane.cross start target way = -(helix.radius ^ 2 * sin helix.travel) := by
    rw [← joins.cross_centre, Plane.cross]
    simp
  rw [covers.sin_abs, hcross]
  split_ifs <;> ring

theorem abs_travel_le_pi (apart : 0 < helix.radius) (short : |helix.travel| < 2 * π)
    (right : direction = .clockwise → helix.plane.cross start target way ≤ 0)
    (left : direction = .counterclockwise → 0 ≤ helix.plane.cross start target way) :
    |helix.travel| ≤ π := by
  have hside := joins.sq_mul_sin_abs_travel covers
  refine le_pi_of_sin_nonneg short (nonneg_of_mul_nonneg_right ?_ (pow_pos apart 2))
  rw [hside]
  cases direction with
  | clockwise => simpa using right rfl
  | counterclockwise => simpa using left rfl

theorem pi_le_abs_travel (apart : 0 < helix.radius) (moves : 0 < |helix.travel|)
    (left : direction = .clockwise → 0 ≤ helix.plane.cross start target way)
    (right : direction = .counterclockwise → helix.plane.cross start target way ≤ 0) :
    π ≤ |helix.travel| := by
  have hside := joins.sq_mul_sin_abs_travel covers
  refine pi_le_of_sin_nonpos moves (nonpos_of_mul_nonpos_right ?_ (pow_pos apart 2))
  rw [hside]
  cases direction with
  | clockwise => simpa using left rfl
  | counterclockwise => simpa using right rfl

end Helix.Joins

/-! ## The arc -/

/-- A radius leads to the arc from a start to a target around the end of a way from the start. -/
structure ArcByRadius (plane : Plane) (direction : Turn) (radius : ℝ) (start target way : Point ℝ) :
    Prop where
  solved : centreByRadius start.exact target.exact (.real radius) plane direction = .ok way.exact
  level : way.get plane.across = 0
  startDistance : plane.distance start (start.translate way) = |radius|
  targetDistance : plane.distance target (start.translate way) = |radius|
  right : direction = .clockwise ∧ 0 < radius ∨ direction = .counterclockwise ∧ radius < 0 →
    plane.cross start target way ≤ 0
  left : direction = .counterclockwise ∧ 0 < radius ∨ direction = .clockwise ∧ radius < 0 →
    0 ≤ plane.cross start target way
  /-- The offset that stands beside a radius makes no difference. -/
  arc : ∀ unused, ∃ helix : Helix ℝ, helix.plane = plane ∧
    helix.Joins start target (start.translate way) ∧ direction.Covers helix.travel ∧
    arcBetween start.exact target.exact unused (some (.real radius)) plane direction =
      .ok ⟨way.exact, helix.exact⟩ ∧
    (0 < radius → |helix.travel| ≤ π) ∧ (radius < 0 → π ≤ |helix.travel|)

theorem arcByRadius_of_fits {start target : Point ℝ} {radius : ℝ} {plane : Plane}
    (distinct : plane.axes.Nodup) (fits : plane.Fits radius start target) (direction : Turn) :
    ArcByRadius plane direction radius start target
      (wayByRadius plane start target radius direction) := by
  have hsolved := centreByRadius_of_fits fits direction
  have hlevel : (wayByRadius plane start target radius direction).get plane.across = 0 :=
    get_wayByRadius_across distinct direction
  have hcross := cross_wayByRadius distinct start target radius direction
  generalize wayByRadius plane start target radius direction = way at hsolved hlevel hcross ⊢
  obtain ⟨offset, hoffset, hradius, hstart, htarget⟩ := centreByRadius_distance distinct hsolved
  obtain rfl : way = offset := Point.exact_injective hoffset
  have hright (right : direction = .clockwise ∧ 0 < radius ∨
      direction = .counterclockwise ∧ radius < 0) : plane.cross start target way ≤ 0 := by
    rw [hcross]
    exact mul_nonpos_of_nonneg_of_nonpos (by positivity) (realSignedQuotient_nonpos _ _ right)
  have hleft (left : direction = .counterclockwise ∧ 0 < radius ∨
      direction = .clockwise ∧ radius < 0) : 0 ≤ plane.cross start target way := by
    rw [hcross]
    exact mul_nonneg (by positivity) (realSignedQuotient_nonneg _ _ left)
  refine ⟨hsolved, hlevel, hstart, htarget, hright, hleft, fun unused => ?_⟩
  -- neither a zero travel nor a whole turn can join the ends of the chord
  have hapart : 0 < plane.distance start (start.translate way) := hstart ▸ hradius
  have hsame := htarget.trans hstart.symm
  obtain ⟨helix, rfl, hjoins, hhelix⟩ := arcAround_exact direction distinct hapart hsame
  have hcovers := arcAround_covers hhelix hapart (hsame ▸ hapart)
  have hpositive : 0 < helix.radius := hjoins.startRadius ▸ hapart
  obtain ⟨hmoves, hturns⟩ := hjoins.abs_travel_mem_Ioo hcovers fits.nonzero
  refine ⟨helix, rfl, hjoins, hcovers, ?_, fun hpositiveRadius => ?_, fun hnegativeRadius => ?_⟩
  · simp [arcBetween, hsolved, hhelix, bind, Except.bind, pure, Except.pure]
  · exact hjoins.abs_travel_le_pi hcovers hpositive hturns
      (fun hclockwise => hright (.inl ⟨hclockwise, hpositiveRadius⟩))
      (fun hcounterclockwise => hleft (.inl ⟨hcounterclockwise, hpositiveRadius⟩))
  · exact hjoins.pi_le_abs_travel hcovers hpositive hmoves
      (fun hclockwise => hleft (.inr ⟨hclockwise, hnegativeRadius⟩))
      (fun hcounterclockwise => hright (.inr ⟨hcounterclockwise, hnegativeRadius⟩))

/-- In exact arithmetic a radius leads to no centre exactly if the chord of the arc is zero or
longer than the diameter.  Otherwise the centre is a radius away from both ends of the chord, on the
side that makes the arc at most half a turn for a positive radius and at least half a turn for a
negative one.  The opposite radius has the same centre in the opposite direction.  The arc back has
the same centre seen along the axis across the plane; whole centres agree only at equal depth, as
each lies at the depth of its start. -/
theorem centreByRadius_side (start target : Point ℝ) (radius : ℝ) (direction : Turn) {plane : Plane}
    (distinct : plane.axes.Nodup) :
    let x := target.get plane.first - start.get plane.first
    let y := target.get plane.second - start.get plane.second
    let unfit := (x = 0 ∧ y = 0) ∨ 4 * radius ^ 2 < x ^ 2 + y ^ 2
    ((∃ failure, centreByRadius start.exact target.exact (.real radius) plane direction =
        .error failure) ↔ unfit) ∧
      (¬ unfit → ∃ way : Point ℝ, ArcByRadius plane direction radius start target way ∧
        centreByRadius start.exact target.exact (.real (-radius)) plane direction.opposite =
          .ok way.exact ∧
        ∃ back : Point ℝ,
          centreByRadius target.exact start.exact (.real radius) plane direction.opposite =
            .ok back.exact ∧
          (∀ axis, axis ≠ plane.across →
            (target.translate back).get axis = (start.translate way).get axis) ∧
          (target.get plane.across = start.get plane.across →
            target.translate back = start.translate way)) := by
  intro x y unfit
  refine ⟨centreByRadius_isError_iff.trans not_fitsChord_iff, fun hfit => ?_⟩
  have fits : plane.Fits radius start target := not_not.1 (mt not_fitsChord_iff.1 hfit)
  have harc := arcByRadius_of_fits distinct fits direction
  have hback := arcByRadius_of_fits distinct fits.backwards direction.opposite
  have hinPlane (axis : Axis) (h : axis ≠ plane.across) :
      (target.translate (wayByRadius plane target start radius direction.opposite)).get axis =
        (start.translate (wayByRadius plane start target radius direction)).get axis :=
    get_translate_wayByRadius_back distinct direction h
  refine ⟨_, harc, ?_, _, hback.solved, hinPlane, fun hlevel => Point.ext_get fun axis => ?_⟩
  · rw [centreByRadius_of_fits (FitsChord.neg_radius fits),
      wayByRadius_opposite (FitsChord.radius_ne_zero fits)]
  · by_cases hacross : axis = plane.across
    · rw [hacross, Point.get_translate, Point.get_translate, hlevel, hback.level, harc.level]
    · exact hinPlane axis hacross

theorem centreByRadius_side_right :
    let start : Point ℝ := ⟨0, 0, 0⟩
    let target : Point ℝ := ⟨6, 0, 1⟩
    Plane.xy.axes.Nodup ∧ ArcByRadius .xy .clockwise 5 start target ⟨3, -4, 0⟩ ∧
      ∃ failure, centreByRadius start.exact target.exact (.real 2) .xy .clockwise =
        .error failure := by
  intro start target
  have hdistinct : Plane.xy.axes.Nodup := by decide
  obtain ⟨-, hfits⟩ := centreByRadius_side start target 5 .clockwise hdistinct
  obtain ⟨hlong, -⟩ := centreByRadius_side start target 2 .clockwise hdistinct
  refine ⟨hdistinct, ?_, hlong.2 (by norm_num [start, target, Plane.xy, Point.get])⟩
  obtain ⟨⟨first, second, across⟩, harc, -⟩ :=
    hfits (by norm_num [start, target, Plane.xy, Point.get])
  have hlevel := harc.level
  have hstart := harc.startDistance
  have htarget := harc.targetDistance
  have hright := harc.right (by norm_num)
  have hfive : (0 : ℝ) < |5| := by norm_num
  simp only [Plane.distance, Plane.cross, Point.translate, Plane.xy, Point.get, start, target,
    sqrt_eq_iff_mul_self_eq_of_pos hfive, abs_mul_abs_self] at hlevel hstart htarget hright
  have hfirst : first = 3 := by linarith
  have hsecond : second = -4 := by
    rw [hfirst] at hstart
    nlinarith
  rwa [hfirst, hsecond, hlevel] at harc

end Gcode
