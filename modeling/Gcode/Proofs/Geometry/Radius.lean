import Gcode.Proofs.Geometry.Centre
import Gcode.Proofs.Geometry.Exact

/-!
# Arcs by their radius in exact arithmetic

A chord that is not zero and no longer than twice the radius has a centre, which is a radius away
from both of its ends.  No other chord has one.
-/

namespace Gcode

open Real

noncomputable def realQuotient (radius x y : ℝ) : ℝ :=
  -√(4 * radius * radius - x * x - y * y) / √(x ^ 2 + y ^ 2)

theorem chordQuotient_exact {radius x y : ℝ} (nonzero : 0 < x ^ 2 + y ^ 2)
    (short : x ^ 2 + y ^ 2 ≤ 4 * radius ^ 2) :
    chordQuotient (.real radius) (.real x) (.real y) = Exact.real (realQuotient radius x y) := by
  have hradicand : 0 ≤ 4 * radius * radius - x * x - y * y := by linarith
  simp only [chordQuotient, Exact.scalar_ofNat, Exact.real_mul, Exact.real_sub,
    Exact.scalar_hypot, Nat.cast_ofNat, Exact.scalar_sqrt hradicand, Exact.neg_real,
    Exact.real_div _ (sqrt_pos.2 nonzero).ne', realQuotient]

theorem isFinite_chordQuotient_iff (radius x y : ℝ) :
    Scalar.isFinite (chordQuotient (Exact.real radius) (.real x) (.real y)) = true ↔
      0 < x ^ 2 + y ^ 2 ∧ x ^ 2 + y ^ 2 ≤ 4 * radius ^ 2 := by
  constructor
  · intro hfinite
    constructor
    · by_contra hzero
      have hlength : √(x ^ 2 + y ^ 2) = 0 := sqrt_eq_zero_of_nonpos (not_lt.1 hzero)
      rw [chordQuotient, Exact.scalar_hypot, hlength, Exact.isFinite_div_zero] at hfinite
      contradiction
    · by_contra hlong
      have hradicand : 4 * radius * radius - x * x - y * y < 0 := by linarith
      simp only [chordQuotient, Exact.scalar_ofNat, Exact.real_mul, Exact.real_sub, Nat.cast_ofNat,
        Exact.scalar_sqrt_of_neg hradicand, Exact.neg_undefined, Exact.undefined_div] at hfinite
      contradiction
  · rintro ⟨hnonzero, hshort⟩
    rw [chordQuotient_exact hnonzero hshort]
    rfl

theorem sq_realQuotient {radius x y : ℝ} (nonzero : 0 < x ^ 2 + y ^ 2)
    (short : x ^ 2 + y ^ 2 ≤ 4 * radius ^ 2) :
    (x ^ 2 + y ^ 2) * realQuotient radius x y ^ 2 = 4 * radius ^ 2 - (x ^ 2 + y ^ 2) := by
  rw [realQuotient, div_pow, neg_sq, sq_sqrt (by linarith), sq_sqrt nonzero.le]
  field_simp
  ring

noncomputable def realSignedQuotient (radius x y : ℝ) (direction : Turn) : ℝ :=
  let quotient := realQuotient radius x y
  let quotient := if direction = .counterclockwise then -quotient else quotient
  if radius < 0 then -quotient else quotient

theorem signedQuotient_exact {radius x y : ℝ} (nonzero : 0 < x ^ 2 + y ^ 2)
    (short : x ^ 2 + y ^ 2 ≤ 4 * radius ^ 2) (direction : Turn) :
    signedQuotient (.real radius) (.real x) (.real y) direction =
      Exact.real (realSignedQuotient radius x y direction) := by
  simp only [signedQuotient, chordQuotient_exact nonzero short, realSignedQuotient,
    Exact.scalar_ofNat, Exact.scalar_less, Nat.cast_zero]
  split_ifs <;> simp

theorem sq_realSignedQuotient (radius x y : ℝ) (direction : Turn) :
    realSignedQuotient radius x y direction ^ 2 = realQuotient radius x y ^ 2 := by
  unfold realSignedQuotient
  simp only
  split_ifs <;> simp

theorem centreBeside_exact (plane : Plane) (x y quotient : ℝ) :
    centreBeside plane (.real x) (.real y) (.real quotient) =
      (realCentreBeside plane x y quotient).exact := by
  have hzero : (Point.replicate 0 : Point ℝ).exact = Point.replicate (.real 0) := rfl
  simp only [centreBeside, realCentreBeside, Point.exact_set, hzero, Exact.scalar_ofNat,
    Exact.real_mul, Exact.real_sub, Exact.real_add, Nat.cast_zero, Nat.cast_ofNat,
    Exact.real_div _ (two_ne_zero (α := ℝ))]

theorem get_realCentreBeside {plane : Plane} (distinct : plane.first ≠ plane.second)
    (x y quotient : ℝ) :
    (realCentreBeside plane x y quotient).get plane.first = (x - y * quotient) / 2 ∧
      (realCentreBeside plane x y quotient).get plane.second = (y + x * quotient) / 2 := by
  rw [realCentreBeside, Point.get_set_self, Point.get_set_of_ne _ distinct, Point.get_set_self]
  exact ⟨rfl, rfl⟩

theorem centreByRadius_exact {start target : Point ℝ} {radius : ℝ} {plane : Plane}
    {direction : Turn} {offset : Point Exact} (distinct : plane.first ≠ plane.second)
    (solved : centreByRadius start.exact target.exact (.real radius) plane direction =
      .ok offset) :
    ∃ centre : Point ℝ, offset = centre.exact ∧
      let x := target.get plane.first - start.get plane.first
      let y := target.get plane.second - start.get plane.second
      0 < radius ^ 2 ∧
        centre.get plane.first ^ 2 + centre.get plane.second ^ 2 = radius ^ 2 ∧
        (x - centre.get plane.first) ^ 2 + (y - centre.get plane.second) ^ 2 = radius ^ 2 := by
  obtain ⟨hfinite, hoffset⟩ := centreByRadius_ok_iff.1 solved
  simp only [Point.get_exact, Exact.real_sub] at hfinite hoffset
  obtain ⟨hnonzero, hshort⟩ := (isFinite_chordQuotient_iff ..).1 hfinite
  rw [signedQuotient_exact hnonzero hshort, centreBeside_exact] at hoffset
  refine ⟨_, hoffset, ?_⟩
  intro x y
  have hquotient := sq_realQuotient hnonzero hshort
  rw [← sq_realSignedQuotient radius _ _ direction] at hquotient
  obtain ⟨hfirst, hsecond⟩ := get_realCentreBeside distinct x y
    (realSignedQuotient radius x y direction)
  rw [hfirst, hsecond]
  refine ⟨by linarith, ?_, ?_⟩
  · linear_combination (1 / 4) * hquotient
  · linear_combination (1 / 4) * hquotient

end Gcode
