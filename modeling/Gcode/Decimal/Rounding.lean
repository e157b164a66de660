/-!
# Rounding a quotient

`roundQuotient tie numerator denominator` is the natural number nearest to the exact quotient.
Only an exact half leaves a choice, and `Tie` names the two ways to make it.
-/

namespace Gcode

/-- Where an exact half goes: to the even neighbour, or always upwards. -/
inductive Tie where
  | even
  | up
  deriving DecidableEq, Repr

namespace Tie

def roundsUp : Tie → Nat → Bool
  | .even, floor => floor % 2 == 1
  | .up, _ => true

end Tie

def roundQuotient (tie : Tie) (numerator denominator : Nat) : Nat :=
  let floor := numerator / denominator
  let twice := 2 * (numerator % denominator)
  if denominator < twice || (twice == denominator && tie.roundsUp floor) then floor + 1 else floor

theorem roundQuotient_eq_or (tie : Tie) (numerator denominator : Nat) :
    roundQuotient tie numerator denominator = numerator / denominator ∨
      roundQuotient tie numerator denominator = numerator / denominator + 1 := by
  simp only [roundQuotient]
  split
  · exact .inr rfl
  · exact .inl rfl

end Gcode
