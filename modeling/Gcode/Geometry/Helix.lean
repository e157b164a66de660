import Gcode.Geometry.Scalar
import Gcode.Geometry.Point

/-!
# Helices

A `Helix` is an arc as a machine moves along it: bearings, a radius and the way across the plane,
but no centre.  `Helix.chordEnds` cuts it into chords from a given start.  How many there are
depends on the length of a chord that is aimed at, and is never zero and never above `maxChords`.
-/

namespace Gcode

structure Helix (α : Type) where
  startBearing : α
  /-- The angle to go: positive clockwise, negative counterclockwise. -/
  travel : α
  radius : α
  depth : α
  plane : Plane
  deriving DecidableEq, BEq, Repr

def maxChords : Nat := 1000000

namespace Helix

variable {α : Type} [Scalar α]

def length (helix : Helix α) : α :=
  Scalar.hypot (helix.travel * helix.radius) (Scalar.abs helix.depth)

/-- The number of chords: as few as keep each at most `reach` long, one if that has no sense. -/
def chordCount (helix : Helix α) (reach : α) : Nat :=
  if Scalar.less (Scalar.ofNat 0) reach then
    match Scalar.ceilAtMost maxChords (helix.length / reach) with
    | some count => max 1 (min count maxChords)
    | none => 1
  else 1

def pointAt (helix : Helix α) (start : Point α) (count step : Nat) : Point α :=
  let plane := helix.plane
  let centreFirst := start.get plane.first - Scalar.sin helix.startBearing * helix.radius
  let centreSecond := start.get plane.second - Scalar.cos helix.startBearing * helix.radius
  let bearing := helix.startBearing + helix.travel / Scalar.ofNat count * Scalar.ofNat step
  ((start.set plane.first (centreFirst + Scalar.sin bearing * helix.radius)).set plane.second
    (centreSecond + Scalar.cos bearing * helix.radius)).set plane.across
      (start.get plane.across + helix.depth / Scalar.ofNat count * Scalar.ofNat step)

def firstChordEnds (helix : Helix α) (start : Point α) (reach : α) (limit : Nat) : List (Point α) :=
  let count := helix.chordCount reach
  (List.range (min limit count)).map fun step => helix.pointAt start count (step + 1)

def chordEnds (helix : Helix α) (start : Point α) (reach : α) : List (Point α) :=
  helix.firstChordEnds start reach (helix.chordCount reach)

def endPoint (helix : Helix α) (start : Point α) (reach : α) : Point α :=
  let count := helix.chordCount reach
  helix.pointAt start count count

theorem chordCount_pos (helix : Helix α) (reach : α) : 0 < helix.chordCount reach := by
  unfold chordCount
  split
  · split <;> omega
  · exact Nat.one_pos

theorem chordCount_le (helix : Helix α) (reach : α) :
    helix.chordCount reach ≤ maxChords := by
  unfold chordCount
  split
  · split
    · exact Nat.max_le.2 ⟨by decide, Nat.min_le_right _ _⟩
    · decide
  · decide

theorem length_chordEnds (helix : Helix α) (start : Point α) (reach : α) :
    (helix.chordEnds start reach).length = helix.chordCount reach := by
  simp [chordEnds, firstChordEnds]

end Helix

end Gcode
