/-!
# Axes, points and planes

Points have one coordinate for each axis.  A `Plane` names its two in-plane axes and the axis across
it, which is the order in which arcs use them.
-/

namespace Gcode

inductive Axis where
  | x
  | y
  | z
  deriving DecidableEq, Repr

namespace Axis

def all : List Axis := [x, y, z]

def letter : Axis → Char
  | x => 'X'
  | y => 'Y'
  | z => 'Z'

def ofLetter? : Char → Option Axis
  | 'X' => some x
  | 'Y' => some y
  | 'Z' => some z
  | _ => none

end Axis

/-- A point, or the difference of two. -/
structure Point (α : Type) where
  x : α
  y : α
  z : α
  deriving DecidableEq, BEq, Repr

namespace Point

variable {α : Type}

def get (point : Point α) : Axis → α
  | .x => point.x
  | .y => point.y
  | .z => point.z

def set (point : Point α) (axis : Axis) (value : α) : Point α :=
  match axis with
  | .x => { point with x := value }
  | .y => { point with y := value }
  | .z => { point with z := value }

def replicate (value : α) : Point α := ⟨value, value, value⟩

def toList (point : Point α) : List α := [point.x, point.y, point.z]

@[simp] theorem get_set_self (point : Point α) (axis : Axis) (value : α) :
    (point.set axis value).get axis = value := by
  cases axis <;> rfl

theorem get_set_of_ne (point : Point α) {axis other : Axis} (different : other ≠ axis) (value : α) :
    (point.set axis value).get other = point.get other := by
  cases axis <;> cases other <;> first | rfl | exact absurd rfl different

@[simp] theorem get_replicate (value : α) (axis : Axis) : (replicate value).get axis = value := by
  cases axis <;> rfl

theorem ext_get {left right : Point α} (same : ∀ axis, left.get axis = right.get axis) :
    left = right := by
  cases left
  cases right
  have := same .x
  have := same .y
  have := same .z
  simp_all [get]

end Point

structure Plane where
  first : Axis
  second : Axis
  across : Axis
  deriving DecidableEq, Repr

namespace Plane

def xy : Plane := ⟨.x, .y, .z⟩
def xz : Plane := ⟨.x, .z, .y⟩
def yz : Plane := ⟨.y, .z, .x⟩

def axes (plane : Plane) : List Axis := [plane.first, plane.second, plane.across]

def name (plane : Plane) : String :=
  String.ofList [plane.first.letter, plane.second.letter]

end Plane

end Gcode
