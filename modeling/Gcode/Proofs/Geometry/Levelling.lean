import Gcode.Geometry.Arc
import Mathlib.Logic.Function.Basic

/-!
# Levelling a plane

To level a plane is to rename its axes so that it becomes the plane `XY`.  An arc between levelled
points is the levelled arc: arcs know axes only by the role that they have in their plane.
-/

namespace Gcode

namespace Plane

variable {plane : Plane}

theorem axes_ne (distinct : plane.axes.Nodup) :
    plane.first ≠ plane.second ∧ plane.first ≠ plane.across ∧ plane.second ≠ plane.across := by
  simpa [axes, and_assoc] using distinct

theorem mem_axes (distinct : plane.axes.Nodup) (axis : Axis) :
    axis = plane.first ∨ axis = plane.second ∨ axis = plane.across := by
  obtain ⟨first, second, across⟩ := plane
  revert distinct
  cases axis <;> cases first <;> cases second <;> cases across <;> decide

def axis (plane : Plane) : Axis → Axis
  | .x => plane.first
  | .y => plane.second
  | .z => plane.across

def role (plane : Plane) (axis : Axis) : Axis :=
  if axis = plane.first then .x else if axis = plane.second then .y else .z

theorem role_axis (distinct : plane.axes.Nodup) (axis : Axis) :
    plane.role (plane.axis axis) = axis := by
  obtain ⟨hinPlane, hfirst, hsecond⟩ := axes_ne distinct
  cases axis <;> simp [role, Plane.axis, hinPlane.symm, hfirst.symm, hsecond.symm]

theorem axis_role (distinct : plane.axes.Nodup) (axis : Axis) :
    plane.axis (plane.role axis) = axis := by
  rcases mem_axes distinct axis with rfl | rfl | rfl
  · exact congrArg plane.axis (role_axis distinct .x)
  · exact congrArg plane.axis (role_axis distinct .y)
  · exact congrArg plane.axis (role_axis distinct .z)

theorem role_injective (distinct : plane.axes.Nodup) : Function.Injective plane.role :=
  Function.LeftInverse.injective (axis_role distinct)

end Plane

section

variable {α : Type}

namespace Point

/-- The coordinates in the order in which a plane names its axes. -/
def levelled (plane : Plane) (point : Point α) : Point α :=
  ⟨point.get plane.first, point.get plane.second, point.get plane.across⟩

@[simp] theorem get_levelled (plane : Plane) (point : Point α) (axis : Axis) :
    (point.levelled plane).get axis = point.get (plane.axis axis) := by
  cases axis <;> rfl

@[simp] theorem levelled_replicate (plane : Plane) (value : α) :
    (replicate value).levelled plane = replicate value :=
  ext_get fun axis => by simp

theorem levelled_set {plane : Plane} (distinct : plane.axes.Nodup) (point : Point α) (axis : Axis)
    (value : α) :
    (point.set axis value).levelled plane = (point.levelled plane).set (plane.role axis) value := by
  refine ext_get fun other => ?_
  by_cases hother : other = plane.role axis
  · subst hother
    rw [get_levelled, Plane.axis_role distinct, get_set_self, get_set_self]
  · have haxis : plane.axis other ≠ axis := by
      rintro rfl
      exact hother (Plane.role_axis distinct other).symm
    rw [get_levelled, get_set_of_ne _ haxis, get_set_of_ne _ hother, get_levelled]

end Point

def Helix.levelled (helix : Helix α) : Helix α := { helix with plane := .xy }

def CentredArc.levelled (plane : Plane) (arc : CentredArc α) : CentredArc α :=
  ⟨arc.offset.levelled plane, arc.helix.levelled⟩

variable [Scalar α]

theorem centreByRadius_levelled {plane : Plane} (distinct : plane.axes.Nodup)
    (position target : Point α) (radius : α) (direction : Turn) :
    centreByRadius (position.levelled plane) (target.levelled plane) radius .xy direction =
      (centreByRadius position target radius plane direction).map (Point.levelled plane) := by
  have hfirst : plane.role plane.first = .x := Plane.role_axis distinct .x
  have hsecond : plane.role plane.second = .y := Plane.role_axis distinct .y
  simp only [centreByRadius, Point.get_levelled, Plane.xy, Plane.axis]
  split
  · rw [Except.map, Point.levelled_set distinct, Point.levelled_set distinct, hfirst, hsecond,
      Point.levelled_replicate]
  · rfl

theorem arcBetween_levelled {plane : Plane} (distinct : plane.axes.Nodup)
    (position target offset : Point α) (radius : Option α) (direction : Turn) :
    arcBetween (position.levelled plane) (target.levelled plane) (offset.levelled plane) radius .xy
        direction =
      (arcBetween position target offset radius plane direction).map
        (CentredArc.levelled plane) := by
  cases radius with
  | none => rfl
  | some radius =>
      simp only [arcBetween, centreByRadius_levelled distinct]
      cases centreByRadius position target radius plane direction <;> rfl

end

end Gcode
