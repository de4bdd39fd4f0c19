/-!
# Natural numbers

Main definitions:

* `power`: powers are repeated products of numbers, in every module alike.
* `roundDiv`: a quotient rounded to the nearest number.

Main results:

- Theorem `roundDiv_le`, Theorem `le_roundDiv`: rounding goes up by one at most, and never down.
-/

namespace Redelivery

/-- Powers are those of the numbers themselves, also where an algebra offers its own. -/
@[default_instance high]
scoped instance power {α : Type} [NatPow α] : Pow α Nat := instPowNat

/-- The quotient `n / d` rounded to the nearest natural number; a tie goes to the
even neighbour. -/
def roundDiv (n d : Nat) : Nat :=
  if 2 * (n % d) < d then n / d
  else if d < 2 * (n % d) then n / d + 1
  else n / d + n / d % 2

theorem roundDiv_le (n d : Nat) : roundDiv n d ≤ n / d + 1 := by
  unfold roundDiv
  split
  · omega
  · split <;> omega

theorem le_roundDiv (n d : Nat) : n / d ≤ roundDiv n d := by
  unfold roundDiv
  split
  · omega
  · split <;> omega

end Redelivery
