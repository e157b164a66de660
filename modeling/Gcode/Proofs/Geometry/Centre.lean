import Gcode.Geometry.Arc

/-!
# The centre of an arc

`centreByRadius` goes from the middle of the chord to the centre, by a quotient of the chord to its
side.  The sign of the quotient says on which side of the chord the centre is: it depends on the
direction and on the sign of the radius, and on nothing else.
-/

namespace Gcode

section

variable {α : Type} [Scalar α]

/-- The way from the middle of the chord `(x, y)` to the centre, in units of half a chord. -/
def signedQuotient (radius x y : α) (direction : Turn) : α :=
  let quotient := chordQuotient radius x y
  let quotient := if direction = .counterclockwise then -quotient else quotient
  if Scalar.less radius (Scalar.ofNat 0) then -quotient else quotient

def centreBeside (plane : Plane) (x y quotient : α) : Point α :=
  ((Point.replicate (Scalar.ofNat 0)).set plane.first
    ((x - y * quotient) / Scalar.ofNat 2)).set plane.second ((y + x * quotient) / Scalar.ofNat 2)

theorem get_centreBeside_second (plane : Plane) (x y quotient : α) :
    (centreBeside plane x y quotient).get plane.second = (y + x * quotient) / Scalar.ofNat 2 :=
  Point.get_set_self ..

theorem get_centreBeside_first {plane : Plane} (distinct : plane.first ≠ plane.second)
    (x y quotient : α) :
    (centreBeside plane x y quotient).get plane.first = (x - y * quotient) / Scalar.ofNat 2 := by
  rw [centreBeside, Point.get_set_of_ne _ distinct, Point.get_set_self]

theorem get_centreBeside_of_ne {plane : Plane} {axis : Axis} (first : axis ≠ plane.first)
    (second : axis ≠ plane.second) (x y quotient : α) :
    (centreBeside plane x y quotient).get axis = Scalar.ofNat 0 := by
  rw [centreBeside, Point.get_set_of_ne _ second, Point.get_set_of_ne _ first, Point.get_replicate]

theorem centreByRadius_ok_iff {position target offset : Point α} {radius : α} {plane : Plane}
    {direction : Turn} :
    let x := target.get plane.first - position.get plane.first
    let y := target.get plane.second - position.get plane.second
    centreByRadius position target radius plane direction = .ok offset ↔
      Scalar.isFinite (chordQuotient radius x y) = true ∧
        offset = centreBeside plane x y (signedQuotient radius x y direction) := by
  intro x y
  unfold centreByRadius
  simp only
  split
  · next hfinite => simpa [hfinite, x, y, centreBeside, signedQuotient] using eq_comm
  · next hinfinite => simp [hinfinite, x, y]

def Turn.travelBetween (direction : Turn) (first last : α) : α :=
  let ahead := (if Scalar.less last first then last + fullTurn else last) - first
  if direction = .counterclockwise then ahead - fullTurn else ahead

theorem arcBetween_ok {position target offset : Point α} {radius : Option α} {plane : Plane}
    {direction : Turn} {arc : CentredArc α}
    (solved : arcBetween position target offset radius plane direction = .ok arc) :
    arc = arcAround position target arc.offset plane direction ∧
      ((radius = none ∧ arc.offset = offset) ∨
        ∃ r, radius = some r ∧
          centreByRadius position target r plane direction = .ok arc.offset) := by
  cases radius with
  | none =>
      obtain rfl := Except.ok.inj solved
      exact ⟨rfl, .inl ⟨rfl, rfl⟩⟩
  | some r =>
      cases hcentre : centreByRadius position target r plane direction with
      | error failure => simp [arcBetween, hcentre, bind, Except.bind] at solved
      | ok centre =>
          obtain rfl : arcAround position target centre plane direction = arc := by
            simpa [arcBetween, hcentre, bind, Except.bind, pure, Except.pure] using solved
          exact ⟨rfl, .inr ⟨r, rfl, hcentre⟩⟩

end

end Gcode
