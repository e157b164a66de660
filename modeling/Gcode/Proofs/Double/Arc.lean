import Gcode.Proofs.Double.Bearing

/-!
# Arcs of doubles

What can be no number in an arc that is solved in doubles.  Its radius and its depth never are, so
there remain its bearings and what it travels.
-/

namespace Gcode

namespace Kind

def isLength : Kind → Bool
  | zero false | nonzero false | infinite false => true
  | _ => false

theorem isNumber_of_isLength : ∀ {kind : Kind}, kind.isLength = true → kind.isNumber = true := by
  decide

theorem isLength_magnitude : ∀ {kind : Kind}, kind.isNumber = true →
    (magnitude kind).isLength = true := by
  decide

theorem isLength_quotient : ∀ {left result : Kind}, result ∈ quotients left (nonzero false) →
    left.isLength = true → result.isLength = true := by
  decide

theorem isLength_square : ∀ {kind result : Kind}, result ∈ products kind kind →
    kind.isNumber = true → result.isLength = true := by
  decide

theorem isLength_sum : ∀ {left right result : Kind}, result ∈ sums left right →
    left.isLength = true → right.isLength = true → result.isLength = true := by
  decide

theorem isLength_root : ∀ {kind result : Kind}, result ∈ roots kind → kind.isLength = true →
    result.isLength = true := by
  decide

theorem isLength_product : ∀ {left result : Kind}, result ∈ products left (nonzero false) →
    left.isLength = true → result.isLength = true := by
  decide

/-! ## Radicands -/

def isRootless : Kind → Bool
  | nan | infinite true => true
  | _ => false

theorem isRootless_sub_square : ∀ {left side square result : Kind},
    square ∈ products side side → result ∈ sums left (opposite square) →
      left.isRootless = true ∨ side.isFinite = false → result.isRootless = true := by
  decide

theorem root_of_isRootless : ∀ {kind result : Kind}, result ∈ roots kind →
    kind.isRootless = true → result = nan := by
  decide

theorem quotient_of_nan : ∀ {right result : Kind}, result ∈ quotients nan right → result = nan := by
  decide

end Kind

open Kind

/-! ## The radius -/

theorem isLength_scaledHypotenuse {x y unit : Float} (hx : (ofFloat x).isNumber = true)
    (hy : (ofFloat y).isNumber = true) (hunit : ofFloat unit = nonzero false) :
    (ofFloat ((x.abs / unit * (x.abs / unit) + y.abs / unit * (y.abs / unit)).sqrt *
      unit)).isLength = true := by
  have hsquare : ∀ leg : Float, (ofFloat leg).isNumber = true →
      (ofFloat (leg.abs / unit * (leg.abs / unit))).isLength = true := by
    intro leg hleg
    have hquotient := ofFloat_div leg.abs unit
    rw [hunit, ofFloat_abs] at hquotient
    have hscaled := isLength_quotient hquotient (isLength_magnitude hleg)
    exact isLength_square (ofFloat_mul _ _) (isNumber_of_isLength hscaled)
  have hsum := isLength_sum (ofFloat_add _ _) (hsquare x hx) (hsquare y hy)
  have hroot := isLength_root (ofFloat_sqrt _) hsum
  have hproduct := ofFloat_mul
    (x.abs / unit * (x.abs / unit) + y.abs / unit * (y.abs / unit)).sqrt unit
  rw [hunit] at hproduct
  exact isLength_product hproduct hroot

theorem isLength_hypotenuse {x y : Float} (hx : (ofFloat x).isNumber = true)
    (hy : (ofFloat y).isNumber = true) : (ofFloat (hypotenuse x y)).isLength = true := by
  unfold hypotenuse
  simp only
  split
  · rfl
  · refine isLength_scaledHypotenuse hx hy ?_
    split_ifs <;> rfl

/-! ## The centre -/

theorem isFinite_of_chordQuotient {radius x y : Float}
    (h : (chordQuotient radius x y).isFinite = true) :
    x.isFinite = true ∧ y.isFinite = true := by
  by_contra hinfinite
  have hfirst : (ofFloat (Float.ofNat 4 * radius * radius - x * x)).isRootless = true ∨
      (ofFloat y).isFinite = false := by
    rw [isFinite_eq, isFinite_eq, not_and_or, Bool.not_eq_true, Bool.not_eq_true] at hinfinite
    exact hinfinite.imp_left fun hx =>
      isRootless_sub_square (ofFloat_mul x x) (ofFloat_sub _ _) (.inr hx)
  have hradicand := isRootless_sub_square (ofFloat_mul y y) (ofFloat_sub _ _) hfirst
  have hroot := root_of_isRootless (ofFloat_sqrt _) hradicand
  have hquotient := ofFloat_div
    (-(Float.ofNat 4 * radius * radius - x * x - y * y).sqrt) (hypotenuse x y)
  rw [ofFloat_neg, hroot] at hquotient
  have hkind : ofFloat (chordQuotient radius x y) = nan := quotient_of_nan hquotient
  rw [isFinite_eq, hkind] at h
  contradiction

theorem isNumber_half {x : Float} (h : (ofFloat x).isNumber = true) :
    (ofFloat (x / Float.ofNat 2)).isNumber = true := by
  have htwo : ofFloat (Float.ofNat 2) = nonzero false := by rfl
  exact isNumber_quotient_of_nonzero htwo (ofFloat_div _ _) h

theorem isNumber_centre {x y quotient : Float} (hx : x.isFinite = true) (hy : y.isFinite = true)
    (hquotient : quotient.isFinite = true) :
    (ofFloat ((x - y * quotient) / Float.ofNat 2)).isNumber = true ∧
      (ofFloat ((y + x * quotient) / Float.ofNat 2)).isNumber = true := by
  rw [isFinite_eq] at hx hy hquotient
  have hfirst := isNumber_product_of_finite (ofFloat_mul y quotient) hy hquotient
  have hsecond := isNumber_product_of_finite (ofFloat_mul x quotient) hx hquotient
  exact ⟨isNumber_half (isNumber_sub_of_finite_left hx hfirst),
    isNumber_half (isNumber_sum_of_finite_left (ofFloat_add _ _) hy hsecond)⟩

theorem isFinite_signedQuotient (radius x y : Float) (direction : Turn) :
    (signedQuotient radius x y direction).isFinite = (chordQuotient radius x y).isFinite := by
  unfold signedQuotient
  simp only
  split_ifs
  · exact (isFinite_neg _).trans (isFinite_neg _)
  · exact isFinite_neg _
  · exact isFinite_neg _
  · rfl

theorem isNumber_centreByRadius {position target offset : Point Float} {radius : Float}
    {plane : Plane} {direction : Turn}
    (solved : centreByRadius position target radius plane direction = .ok offset) :
    (∀ axis, (ofFloat (offset.get axis)).isNumber = true) ∧
      (target.get plane.first).isFinite = true ∧ (target.get plane.second).isFinite = true := by
  obtain ⟨hquotient, rfl⟩ := centreByRadius_ok_iff.1 solved
  obtain ⟨hx, hy⟩ := isFinite_of_chordQuotient hquotient
  refine ⟨fun axis => ?_, (isFinite_of_sub hx).1, (isFinite_of_sub hy).1⟩
  obtain ⟨hfirst, hsecond⟩ := isNumber_centre hx hy
    ((isFinite_signedQuotient _ _ _ direction).trans hquotient)
  by_cases hisSecond : axis = plane.second
  · rw [hisSecond, get_centreBeside_second]
    exact hsecond
  by_cases hisFirst : axis = plane.first
  · rw [hisFirst, get_centreBeside_first (hisFirst ▸ hisSecond)]
    exact hfirst
  · rw [get_centreBeside_of_ne hisFirst hisSecond]
    rfl

/-! ## Solved arcs -/

/-- A solved arc as far as doubles can tell: only its bearings can be undefined.  What it travels is
undefined with either of them. -/
structure CentredArc.Defined (arc : CentredArc Float) (position target : Point Float)
    (plane : Plane) (direction : Turn) : Prop where
  radius : arc.helix.radius.isNaN = false
  depth : arc.helix.depth.isNaN = false
  startBearing : arc.helix.startBearing = (Arm.toStart arc.offset plane).bearing
  travel : arc.helix.travel =
    direction.travelBetween (Arm.toStart arc.offset plane).bearing
      (Arm.toEnd position target arc.offset plane).bearing
  bearings : SoundArctangent →
    (arc.helix.startBearing.isNaN = false ↔ (Arm.toStart arc.offset plane).HasBearing) ∧
      (arc.helix.travel.isNaN = false ↔
        (Arm.toStart arc.offset plane).HasBearing ∧
          (Arm.toEnd position target arc.offset plane).HasBearing)
  start : (Arm.toStart arc.offset plane).HasBearing ↔
    ¬ (Arm.toStart arc.offset plane).IsZero ∧ ¬ (Arm.toStart arc.offset plane).IsInfinite
  finish : (Arm.toEnd position target arc.offset plane).HasBearing ↔
    ¬ (Arm.toEnd position target arc.offset plane).IsZero ∧
      ¬ (Arm.toEnd position target arc.offset plane).IsInfinite

theorem arcAround_defined {position target offset : Point Float} {plane : Plane}
    {direction : Turn} (hposition : ∀ axis, (ofFloat (position.get axis)).isFinite = true)
    (htarget : ∀ axis, (ofFloat (target.get axis)).isNumber = true)
    (hoffset : ∀ axis, (ofFloat (offset.get axis)).isNumber = true)
    (hends : ∀ axis, axis = plane.first ∨ axis = plane.second →
      (ofFloat (offset.get axis)).isFinite = true ∨ (ofFloat (target.get axis)).isFinite = true) :
    (arcAround position target offset plane direction).Defined position target plane direction := by
  have hend : ∀ axis, axis = plane.first ∨ axis = plane.second →
      (ofFloat (target.get axis - offset.get axis - position.get axis)).isNumber = true := by
    intro axis hplane
    refine isNumber_sub_of_finite_right ?_ (hposition axis)
    rcases hends axis hplane with hoffsetFinite | htargetFinite
    · exact isNumber_sub_of_finite_right (htarget axis) hoffsetFinite
    · exact isNumber_sub_of_finite_left htargetFinite (hoffset axis)
  have hradius := isLength_hypotenuse (hoffset plane.first) (hoffset plane.second)
  exact
    { radius := (isNaN_eq_false_iff _).2 (isNumber_of_isLength hradius)
      depth := (isNaN_eq_false_iff _).2 (isNumber_sub_of_finite_right (htarget _) (hposition _))
      startBearing := startBearing_arcAround ..
      travel := travel_arcAround ..
      bearings := fun arctangent => by
        rw [startBearing_arcAround, travel_arcAround]
        rw [arctangent.isNaN_travelBetween_iff, arctangent.isNaN_bearing_iff,
          arctangent.isNaN_bearing_iff]
        exact ⟨.rfl, .rfl⟩
      start := Arm.hasBearing_iff (isNumber_neg (hoffset _)) (isNumber_neg (hoffset _))
      finish := Arm.hasBearing_iff (hend _ (.inl rfl)) (hend _ (.inr rfl)) }

theorem arcBetween_defined {position target offset : Point Float} {radius : Option Float}
    {plane : Plane} {direction : Turn} {arc : CentredArc Float}
    (hposition : ∀ axis, (position.get axis).isFinite = true)
    (htarget : ∀ axis, (target.get axis).isNaN = false)
    (hoffset : ∀ axis, (offset.get axis).isFinite = true)
    (solved : arcBetween position target offset radius plane direction = .ok arc) :
    arc.Defined position target plane direction := by
  simp only [isFinite_eq] at hposition hoffset
  simp only [isNaN_eq_false_iff] at htarget
  obtain ⟨harc, ⟨-, hcentre⟩ | ⟨r, -, hcentre⟩⟩ := arcBetween_ok solved
  · rw [harc]
    refine arcAround_defined hposition htarget ?_ ?_ <;> rw [hcentre]
    · exact fun axis => isNumber_of_isFinite (hoffset axis)
    · exact fun axis _ => .inl (hoffset axis)
  · obtain ⟨hnumbers, hfirst, hsecond⟩ := isNumber_centreByRadius hcentre
    rw [isFinite_eq] at hfirst hsecond
    rw [harc]
    refine arcAround_defined hposition htarget hnumbers ?_
    rintro axis (rfl | rfl)
    · exact .inr hfirst
    · exact .inr hsecond

end Gcode
