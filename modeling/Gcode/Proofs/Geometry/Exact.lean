import Gcode.Geometry.Arc
import Gcode.Geometry.Point
import Gcode.Geometry.Scalar
import Mathlib

/-!
# Exact scalars

`Exact` reads the formulas of arc geometry in real arithmetic.  Besides the real numbers there are
the two infinities and an undefined value, with the operations on them that doubles have: a nonzero
number over zero is infinite with the sign of the number, zero over zero and the square root of a
negative number are undefined.  Zero has no sign here.
-/

namespace Gcode

inductive Exact where
  | real (value : ℝ)
  | infinite (negative : Bool)
  | undefined

namespace Exact

noncomputable def infinity (value : ℝ) (opposite : Bool) : Exact :=
  infinite (decide (value < 0) != opposite)

protected noncomputable def add : Exact → Exact → Exact
  | real x, real y => real (x + y)
  | infinite left, infinite right => if left = right then infinite left else undefined
  | infinite sign, real _ | real _, infinite sign => infinite sign
  | undefined, _ | _, undefined => undefined

protected noncomputable def neg : Exact → Exact
  | real x => real (-x)
  | infinite sign => infinite !sign
  | undefined => undefined

protected noncomputable def mul : Exact → Exact → Exact
  | real x, real y => real (x * y)
  | infinite left, infinite right => infinite (left != right)
  | infinite sign, real x | real x, infinite sign =>
    if x = 0 then undefined else infinity x sign
  | undefined, _ | _, undefined => undefined

protected noncomputable def div : Exact → Exact → Exact
  | real x, real y =>
    if y ≠ 0 then real (x / y) else if x ≠ 0 then infinity x false else undefined
  | real _, infinite _ => real 0
  | infinite sign, real y => infinity y sign
  | infinite _, infinite _ => undefined
  | undefined, _ | _, undefined => undefined

protected noncomputable def abs : Exact → Exact
  | real x => real |x|
  | infinite _ => infinite false
  | undefined => undefined

protected noncomputable def sqrt : Exact → Exact
  | real x => if 0 ≤ x then real (Real.sqrt x) else undefined
  | infinite false => infinite false
  | infinite true | undefined => undefined

protected noncomputable def hypot : Exact → Exact → Exact
  | real x, real y => real (Real.sqrt (x ^ 2 + y ^ 2))
  | infinite _, _ | _, infinite _ => infinite false
  | undefined, _ | _, undefined => undefined

/-- A function of real numbers that has no limit at infinity. -/
protected noncomputable def map (f : ℝ → ℝ) : Exact → Exact
  | real x => real (f x)
  | infinite _ | undefined => undefined

protected noncomputable def atan : Exact → Exact
  | real x => real (Real.arctan x)
  | infinite negative => real (if negative then -(Real.pi / 2) else Real.pi / 2)
  | undefined => undefined

protected noncomputable def less : Exact → Exact → Bool
  | real x, real y => decide (x < y)
  | infinite left, infinite right => left && !right
  | infinite left, real _ => left
  | real _, infinite right => !right
  | undefined, _ | _, undefined => false

protected def isFinite : Exact → Bool
  | real _ => true
  | infinite _ | undefined => false

protected noncomputable def ceilAtMost (limit : Nat) : Exact → Option Nat
  | real x => some (min limit ⌈x⌉₊)
  | infinite negative => some (if negative then 0 else limit)
  | undefined => none

noncomputable instance : Scalar Exact where
  add := Exact.add
  sub x y := Exact.add x (Exact.neg y)
  mul := Exact.mul
  div := Exact.div
  neg := Exact.neg
  ofNat n := real n
  pi := real Real.pi
  abs := Exact.abs
  sqrt := Exact.sqrt
  hypot := Exact.hypot
  sin := Exact.map Real.sin
  cos := Exact.map Real.cos
  atan := Exact.atan
  less := Exact.less
  isFinite := Exact.isFinite
  ceilAtMost := Exact.ceilAtMost

/-! ## Operations on real numbers -/

section

variable (x y : ℝ)

@[simp] theorem real_inj : real x = real y ↔ x = y := by
  constructor
  · exact real.inj
  · exact congrArg real

@[simp] theorem real_add : real x + real y = real (x + y) := rfl

@[simp] theorem real_sub : real x - real y = real (x - y) :=
  congrArg real (sub_eq_add_neg x y).symm

@[simp] theorem real_mul : real x * real y = real (x * y) := rfl

@[simp] theorem neg_real : -real x = real (-x) := rfl

@[simp] theorem scalar_ofNat (n : Nat) : (Scalar.ofNat n : Exact) = real n := rfl

@[simp] theorem scalar_pi : (Scalar.pi : Exact) = real Real.pi := rfl

@[simp] theorem scalar_abs : Scalar.abs (real x) = real |x| := rfl

@[simp] theorem scalar_hypot : Scalar.hypot (real x) (real y) = real (Real.sqrt (x ^ 2 + y ^ 2)) :=
  rfl

@[simp] theorem scalar_sin : Scalar.sin (real x) = real (Real.sin x) := rfl

@[simp] theorem scalar_cos : Scalar.cos (real x) = real (Real.cos x) := rfl

@[simp] theorem scalar_atan : Scalar.atan (real x) = real (Real.arctan x) := rfl

@[simp] theorem scalar_less : Scalar.less (real x) (real y) = true ↔ x < y := by
  simp [Scalar.less, Exact.less]

theorem real_div {y : ℝ} (h : y ≠ 0) : real x / real y = real (x / y) :=
  if_pos h

theorem real_div_zero {x : ℝ} (h : x ≠ 0) : real x / real 0 = infinite (decide (x < 0)) := by
  change (if (0 : ℝ) ≠ 0 then real (x / 0) else if x ≠ 0 then infinity x false else undefined) = _
  rw [if_neg (not_not_intro rfl), if_pos h, infinity, Bool.bne_false]

@[simp] theorem scalar_atan_infinite (negative : Bool) :
    Scalar.atan (infinite negative) = real (if negative then -(Real.pi / 2) else Real.pi / 2) :=
  rfl

theorem scalar_sqrt {x : ℝ} (h : 0 ≤ x) : Scalar.sqrt (real x) = real (Real.sqrt x) :=
  if_pos h

theorem scalar_sqrt_of_neg {x : ℝ} (h : x < 0) : Scalar.sqrt (real x) = undefined :=
  if_neg (not_le.2 h)

end

theorem isFinite_div_zero (x : Exact) : Scalar.isFinite (x / real 0) = false := by
  cases x with
  | real x =>
      by_cases hx : x = 0
      · subst hx
        change Exact.isFinite (if (0 : ℝ) ≠ 0 then _ else if (0 : ℝ) ≠ 0 then _ else undefined) = _
        rw [if_neg (not_not_intro rfl), if_neg (not_not_intro rfl)]
        rfl
      · rw [real_div_zero hx]
        rfl
  | infinite | undefined => rfl

@[simp] theorem neg_undefined : -undefined = undefined := rfl

theorem undefined_div (x : Exact) : undefined / x = undefined := by
  cases x <;> rfl

end Exact

def Point.exact (point : Point ℝ) : Point Exact :=
  ⟨.real point.x, .real point.y, .real point.z⟩

@[simp] theorem Point.get_exact (point : Point ℝ) (axis : Axis) :
    point.exact.get axis = .real (point.get axis) := by
  cases axis <;> rfl

theorem Point.exact_set (point : Point ℝ) (axis : Axis) (value : ℝ) :
    (point.set axis value).exact = point.exact.set axis (.real value) := by
  cases axis <;> rfl

theorem Point.exact_injective : Function.Injective Point.exact := by
  rintro ⟨⟩ ⟨⟩ hsame
  simpa [Point.exact] using hsame

/-! ## Formulas of arcs on real numbers -/

noncomputable def travelBetween (startAngle endAngle : ℝ) (direction : Turn) : ℝ :=
  let travel := (if endAngle < startAngle then endAngle + 2 * Real.pi else endAngle) - startAngle
  if direction = .counterclockwise then travel - 2 * Real.pi else travel

/-- How far an arc in a direction can travel. -/
def Turn.Covers (direction : Turn) (travel : ℝ) : Prop :=
  match direction with
  | .clockwise => 0 ≤ travel ∧ travel < 2 * Real.pi
  | .counterclockwise => -(2 * Real.pi) ≤ travel ∧ travel < 0

/-- How far an arc travels between two ends in one direction from its centre. -/
noncomputable def Turn.alignedTravel : Turn → ℝ
  | .clockwise => 0
  | .counterclockwise => -(2 * Real.pi)

noncomputable def realCentreBeside (plane : Plane) (x y quotient : ℝ) : Point ℝ :=
  ((Point.replicate 0).set plane.first ((x - y * quotient) / 2)).set plane.second
    ((y + x * quotient) / 2)

end Gcode
