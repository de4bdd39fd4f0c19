import Redelivery.Binary64.Basic
import Redelivery.Text.Digits

/-!
# Decimal numbers, step by step

A decimal number is turned into a double with no more than the arithmetic of doubles:
the digits in front, as many as 64 bits can hold, make a whole number, which is rounded,
and then multiplied or divided by a power of ten, which is rounded as well.  The result
may miss the nearest double by a little; with few digits and a small power it is the
nearest.

Main definitions:

* `Binary64.Stepwise.hold`: the digits that 64 bits can hold.
* `Binary64.Stepwise.scale?`: the last step.
* `Binary64.ofDigits?`: the double for the digits before and after a point.
-/

namespace Redelivery
namespace Binary64
namespace Stepwise

/-- Lets a number of 64 bits grow by the digits that come next, up to the first that it
cannot hold; what is left of them begins with that one. -/
def hold (n : Nat) : List Char → Nat × List Char
  | [] => (n, [])
  | c :: digits =>
      let grown := 10 * n + Digits.value [c]
      if grown < 2 ^ 64 then hold grown digits else (n, c :: digits)

/-- The largest power of ten that is finite as a double. -/
def topPower : Nat := 308

/-- The whole number that a power of ten is rounded to. -/
def power (n : Nat) : Nat :=
  match ofNat (10 ^ n) with
  | .finite _ k _ => k / one
  | _ => 0

/-- Divides by a power of ten, at most by the largest at a time and for so many times;
whatever is still not divided then is zero. -/
def lower (x : Binary64) (exponent : Nat) : Nat → Binary64
  | 0 => .zero
  | times + 1 =>
      if exponent ≤ topPower then x.divNat (power exponent)
      else lower (x.divNat (power topPower)) (exponent - topPower) times

/-- Multiplies or divides a whole number by a power of ten; `none` if the product is too
large for a double. -/
def scale? (n : Nat) (exponent : Int) : Option Binary64 :=
  if n = 0 then some .zero
  else if exponent < 0 then some (lower (ofNat n) exponent.natAbs 3)
  else if topPower < exponent.natAbs then none
  else
    let x := (ofNat n).mul (ofNat (power exponent.natAbs))
    if x.isFinite then some x else none

end Stepwise

/-- The double for the digits before and after a point and a power of ten; `none` if it
would be too large.  Digits that are not held count before the point and not after it. -/
def ofDigits? (negative : Bool) (whole fraction : List Char) (exponent : Int) :
    Option Binary64 :=
  let (n, left) := Stepwise.hold 0 whole
  let (n, dropped) := Stepwise.hold n fraction
  let places : Int := fraction.length - dropped.length
  (Stepwise.scale? n (exponent + left.length - places)).map fun x =>
    if negative then x.neg else x

end Binary64
end Redelivery
