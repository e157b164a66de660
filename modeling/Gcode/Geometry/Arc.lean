import Gcode.Geometry.Helix

/-!
# Arcs

An arc is given by its start, its target and either the offset of its centre from the start or its
radius.  `arcBetween` turns it into a helix: the bearing of the start as seen from the centre, and
how far to travel from there.  Bearings grow clockwise from the second in-plane axis.

A radius alone leaves two circles; `centreByRadius` takes the one on which the arc is at most half
a turn if the radius is positive, and at least half a turn if it is negative.
-/

namespace Gcode

inductive Turn where
  | clockwise
  | counterclockwise
  deriving DecidableEq, Repr

structure NoSuchArc (α : Type) where
  radius : α
  chord : α
  deriving Repr

structure CentredArc (α : Type) where
  offset : Point α
  helix : Helix α
  deriving Repr

section

variable {α : Type} [Scalar α]

def fullTurn : α := Scalar.ofNat 2 * Scalar.pi

/-- The clockwise angle from the second in-plane axis to the direction `(x, y)`, from `-π` up to but
not including `π`. -/
def bearing (x y : α) : α :=
  let angle := Scalar.atan (x / Scalar.abs y)
  if Scalar.less (Scalar.ofNat 0) y then angle
  else if Scalar.less (Scalar.ofNat 0) angle then Scalar.pi - angle
  else -Scalar.pi - angle

/-- Twice the distance of the centre from the chord `(x, y)`, in units of the chord, negated.  It is
not finite exactly where no circle of this radius joins the ends of the chord. -/
def chordQuotient (radius x y : α) : α :=
  -Scalar.sqrt (Scalar.ofNat 4 * radius * radius - x * x - y * y) / Scalar.hypot x y

def centreByRadius (position target : Point α) (radius : α) (plane : Plane)
    (direction : Turn) : Except (NoSuchArc α) (Point α) :=
  let x := target.get plane.first - position.get plane.first
  let y := target.get plane.second - position.get plane.second
  let quotient := chordQuotient radius x y
  if Scalar.isFinite quotient then
    let quotient := if direction = .counterclockwise then -quotient else quotient
    let quotient := if Scalar.less radius (Scalar.ofNat 0) then -quotient else quotient
    .ok (((Point.replicate (Scalar.ofNat 0)).set plane.first
      ((x - y * quotient) / Scalar.ofNat 2)).set plane.second
        ((y + x * quotient) / Scalar.ofNat 2))
  else .error ⟨radius, Scalar.hypot x y⟩

def arcAround (position target offset : Point α) (plane : Plane) (direction : Turn) :
    CentredArc α :=
  let startBearing := bearing (-offset.get plane.first) (-offset.get plane.second)
  let endBearing := bearing
    (target.get plane.first - offset.get plane.first - position.get plane.first)
    (target.get plane.second - offset.get plane.second - position.get plane.second)
  let endBearing :=
    if Scalar.less endBearing startBearing then endBearing + fullTurn else endBearing
  let travel := endBearing - startBearing
  { offset
    helix :=
      { startBearing
        travel := if direction = .counterclockwise then travel - fullTurn else travel
        radius := Scalar.hypot (offset.get plane.first) (offset.get plane.second)
        depth := target.get plane.across - position.get plane.across
        plane } }

def arcBetween (position target offset : Point α) (radius : Option α) (plane : Plane)
    (direction : Turn) : Except (NoSuchArc α) (CentredArc α) :=
  match radius with
  | some radius => do
    let offset ← centreByRadius position target radius plane direction
    pure (arcAround position target offset plane direction)
  | none => .ok (arcAround position target offset plane direction)

end

end Gcode
