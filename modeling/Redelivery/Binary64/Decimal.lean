import Redelivery.Binary64.Basic

/-!
# Decimal text of doubles

A finite double is written with the fewest decimal digits that read back as the
same double, and of the numbers with that many digits the nearest one is taken.
How those digits are laid out is a choice of the format: a `Layout` says where
positional notation ends, what a whole number carries at its end, how an exponent
is signed, and which of two equally near numbers is written.

Main definitions:

* `Binary64.ReadsBack`: a decimal number lies among the reals that round to a
  magnitude.
* `Binary64.shortest`: the digits and the power of ten of a positive magnitude.
* `Binary64.Layout`, `Binary64.Layout.write`: a layout and the text it gives.
* `Binary64.ofDecimal`: the double nearest to a decimal number.
-/

namespace Redelivery
namespace Binary64

/-! ## Shortest digits -/

/-- The distance from a magnitude to the next larger one. -/
def gapAbove (k : Nat) : Nat := 2 ^ (k.log2 - 52)

/-- The distance from a magnitude to the next smaller one: half as far below a power
of two that is not subnormal. -/
def gapBelow (k : Nat) : Nat :=
  if k = 2 ^ k.log2 && 52 < k.log2 then 2 ^ (k.log2 - 53) else gapAbove k

/-- The quotient `n / d` of units lies among the reals that round to the magnitude
`k`.  The two ends of that interval belong to it when the last significant bit of
`k` is even. -/
def ReadsBack (k n d : Nat) : Prop :=
  if k / gapAbove k % 2 = 0 then
    (2 * k - gapBelow k) * d ≤ 2 * n ∧ 2 * n ≤ (2 * k + gapAbove k) * d
  else
    (2 * k - gapBelow k) * d < 2 * n ∧ 2 * n < (2 * k + gapAbove k) * d

instance (k n d : Nat) : Decidable (ReadsBack k n d) := by
  unfold ReadsBack
  exact inferInstance

/-- A decimal number `digits * 10 ^ exponent`. -/
structure Decimal where
  digits : Nat
  exponent : Int
  deriving DecidableEq, Repr

namespace Decimal

/-- The numerator of a decimal number in units. -/
def num (x : Decimal) : Nat := x.digits * 10 ^ x.exponent.toNat * one

/-- The denominator of a decimal number in units. -/
def den (x : Decimal) : Nat := 10 ^ (-x.exponent).toNat

/-- Moves the zeros at the end of the digits into the exponent. -/
def trim (x : Decimal) : Nat → Decimal
  | 0 => x
  | fuel + 1 =>
      if x.digits ≠ 0 ∧ x.digits % 10 = 0 then
        trim ⟨x.digits / 10, x.exponent + 1⟩ fuel
      else x

end Decimal

/-- The multiple of `10 ^ exponent` just below a magnitude, or the magnitude itself. -/
def gridBelow (k : Nat) (exponent : Int) : Decimal :=
  ⟨k * 10 ^ (-exponent).toNat / (one * 10 ^ exponent.toNat), exponent⟩

/-- The next multiple of the same power of ten. -/
def Decimal.up (x : Decimal) : Decimal := ⟨x.digits + 1, x.exponent⟩

/-- How far a decimal number is from a magnitude, as a multiple of a unit divided by
its own denominator. -/
def Decimal.distance (k : Nat) (x : Decimal) : Nat :=
  (x.num - k * x.den) + (k * x.den - x.num)

/-- The decimal number on the grid of `10 ^ exponent` that reads back as `k` and is
nearest to it, if the grid has one.  Of two equally near ones `tieUp` takes the
larger, and otherwise the one with even digits is taken. -/
def onGrid? (tieUp : Bool) (k : Nat) (exponent : Int) : Option Decimal :=
  let low := gridBelow k exponent
  let high := low.up
  match decide (ReadsBack k low.num low.den), decide (ReadsBack k high.num high.den) with
  | true, true =>
      if low.distance k < high.distance k then some low
      else if high.distance k < low.distance k then some high
      else if tieUp || low.digits % 2 = 1 then some high
      else some low
  | true, false => some low
  | false, true => some high
  | false, false => none

/-- The first grid, from coarse to fine, on which some number reads back as `k`. -/
def shortestFrom (tieUp : Bool) (k : Nat) (exponent : Int) : Nat → Decimal
  | 0 => gridBelow k exponent
  | fuel + 1 =>
      match onGrid? tieUp k exponent with
      | some x => x
      | none => shortestFrom tieUp k (exponent - 1) fuel

/-- A power of ten above every finite double. -/
def coarsest : Int := 309

/-- The shortest decimal number that reads back as the positive magnitude `k`. -/
def shortest (tieUp : Bool) (k : Nat) : Decimal :=
  (shortestFrom tieUp k coarsest 700).trim 20

/-! ## Layout -/

/-- How the digits of a double are laid out. -/
structure Layout where
  /-- Whether a number with this power of ten in front is written positionally. -/
  positional : Int → Bool
  /-- Written after a whole number. -/
  wholeEnd : String
  /-- Written between the digits and a power of ten that is not negative. -/
  exponentMark : String
  /-- Of two equally near numbers the larger one is written. -/
  tieUp : Bool

namespace Layout

/-- Digits with a point after the first `places`, both sides filled with zeros. -/
def point (wholeEnd digits : String) (places : Int) : String :=
  if places ≤ 0 then
    "0." ++ String.ofList (List.replicate (-places).toNat '0') ++ digits
  else if digits.length ≤ places.toNat then
    digits ++ String.ofList (List.replicate (places.toNat - digits.length) '0') ++ wholeEnd
  else
    String.ofList (digits.toList.take places.toNat) ++ "." ++
      String.ofList (digits.toList.drop places.toNat)

/-- One digit, the rest after a point, and the power of ten. -/
def scientific (mark digits : String) (power : Int) : String :=
  let rest := digits.toList.drop 1
  String.ofList (digits.toList.take 1) ++
    (if rest.isEmpty then "" else "." ++ String.ofList rest) ++
    (if power < 0 then "e-" else mark) ++ toString power.natAbs

/-- The text of a positive magnitude. -/
def magnitude (layout : Layout) (k : Nat) : String :=
  let x := shortest layout.tieUp k
  let digits := toString x.digits
  let power := x.exponent + digits.length - 1
  if layout.positional power then point layout.wholeEnd digits (power + 1)
  else scientific layout.exponentMark digits power

/-- The text of a double. -/
def write (layout : Layout) : Binary64 → String
  | .nan => "NaN"
  | .infinite s => if s then "-inf" else "inf"
  | .finite s k _ =>
      (if s then "-" else "") ++
        (if k = 0 then "0" ++ layout.wholeEnd else layout.magnitude k)

end Layout

/-! ## Reading decimals -/

/-- Powers of ten beyond these bounds decide the result whatever the digits are. -/
def clampExponent (digits : Nat) (exponent : Int) : Int :=
  max (-(digits.log2 : Int) - 400) (min 400 exponent)

/-- The double nearest to `digits * 10 ^ exponent`. -/
def ofDecimal (negative : Bool) (digits : Nat) (exponent : Int) : Binary64 :=
  let x : Decimal := ⟨digits, clampExponent digits exponent⟩
  ofUnits negative x.num x.den

end Binary64
end Redelivery
