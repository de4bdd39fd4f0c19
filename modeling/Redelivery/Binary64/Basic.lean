import Redelivery.Natural

/-!
# Double-precision numbers, exactly

A finite double is a whole number of *units*, the unit being the least positive
double `2 ^ (-1074)`.  Comparing two doubles is then comparing two integers, and
rounding is a statement about natural numbers: `nearest` takes a quotient to the
nearest magnitude with at most 53 significant bits, ties to the even neighbour.

Main definitions:

* `Binary64`: not a number, the two infinities, and signed finite magnitudes.
* `Binary64.ofRatio`: the double nearest to a quotient of natural numbers.
* `Binary64.add`, `Binary64.mul`, `Binary64.divNat`: correctly rounded arithmetic.
* `Binary64.lt`, `Binary64.le`: the order, false as soon as one side is no number.
-/

namespace Redelivery
namespace Binary64

/-- One is this power of two in units. -/
def unitScale : Nat := 1074

/-- The largest shift of a 53-bit number that is still a finite magnitude. -/
def topShift : Nat := 2045

/-- The number of units in one. -/
def one : Nat := 2 ^ unitScale

/-- The first magnitude, in units, that is too large for a finite double. -/
def limit : Nat := 2 ^ 53 * 2 ^ topShift

/-- A magnitude in units belongs to a finite double when it has at most 53
significant bits and lies below `limit`. -/
def Representable (k : Nat) : Prop := 2 ^ (k.log2 - 52) ∣ k ∧ k < limit

instance (k : Nat) : Decidable (Representable k) :=
  inferInstanceAs (Decidable (_ ∧ _))

theorem log2_mul_two_pow {m : Nat} (hm : m ≠ 0) (s : Nat) :
    (m * 2 ^ s).log2 = m.log2 + s := by
  have hpos : m * 2 ^ s ≠ 0 := Nat.mul_ne_zero hm (Nat.ne_of_gt (Nat.two_pow_pos s))
  have hlow : 2 ^ (m.log2 + s) ≤ m * 2 ^ s := by
    rw [Nat.pow_add]
    exact Nat.mul_le_mul_right _ (Nat.log2_self_le hm)
  have hhigh : m * 2 ^ s < 2 ^ (m.log2 + s + 1) := by
    rw [show m.log2 + s + 1 = (m.log2 + 1) + s by omega, Nat.pow_add]
    exact Nat.mul_lt_mul_of_pos_right Nat.lt_log2_self (Nat.two_pow_pos s)
  have h₁ := (Nat.le_log2 hpos).2 hlow
  have h₂ := (Nat.log2_lt hpos).2 hhigh
  omega

/-- Shifting a number of at most 53 bits leaves it with at most 53 significant bits. -/
theorem dvd_mul_two_pow {m : Nat} (hm : m < 2 ^ 53) (s : Nat) :
    2 ^ ((m * 2 ^ s).log2 - 52) ∣ m * 2 ^ s := by
  by_cases h : m = 0
  · simp [h]
  · have hlog : m.log2 < 53 := (Nat.log2_lt h).2 hm
    rw [log2_mul_two_pow h]
    exact Nat.dvd_trans (Nat.pow_dvd_pow 2 (by omega)) (Nat.dvd_mul_left _ _)

theorem representable_mul_two_pow {m s : Nat} (hm : m < 2 ^ 53) (hs : s ≤ topShift) :
    Representable (m * 2 ^ s) :=
  ⟨dvd_mul_two_pow hm s,
    Nat.lt_of_lt_of_le (Nat.mul_lt_mul_of_pos_right hm (Nat.two_pow_pos s))
      (Nat.mul_le_mul_left _ (Nat.pow_le_pow_right (by decide) hs))⟩

theorem representable_zero : Representable 0 := by
  have h := representable_mul_two_pow (m := 0) (s := 0) (by decide) (Nat.zero_le _)
  rwa [Nat.zero_mul] at h

/-- The number of low bits that a quotient of this size has to give up. -/
def slack (n d : Nat) : Nat := (n / d).log2 - 52

/-- The magnitude of at most 53 significant bits nearest to the quotient `n / d`,
both in units; a tie goes to the even neighbour. -/
def nearest (n d : Nat) : Nat := roundDiv n (d * 2 ^ slack n d) * 2 ^ slack n d

theorem quotient_lt (n d : Nat) : n / (d * 2 ^ slack n d) < 2 ^ 53 := by
  rw [← Nat.div_div_eq_div_mul]
  apply (Nat.div_lt_iff_lt_mul (Nat.two_pow_pos _)).2
  by_cases h : n / d = 0
  · rw [h]
    exact Nat.mul_pos (by decide) (Nat.two_pow_pos _)
  · rw [← Nat.pow_add]
    apply (Nat.log2_lt h).1
    simp only [slack]
    omega

theorem nearest_dvd (n d : Nat) : 2 ^ ((nearest n d).log2 - 52) ∣ nearest n d := by
  unfold nearest
  have hq := quotient_lt n d
  have hr := roundDiv_le n (d * 2 ^ slack n d)
  by_cases h : roundDiv n (d * 2 ^ slack n d) < 2 ^ 53
  · exact dvd_mul_two_pow h _
  · have hm : roundDiv n (d * 2 ^ slack n d) = 2 ^ 53 := by omega
    rw [hm, show 2 ^ 53 * 2 ^ slack n d = 2 ^ 52 * 2 ^ (slack n d + 1) by
      rw [← Nat.pow_add, ← Nat.pow_add]
      congr 1
      omega]
    exact dvd_mul_two_pow (by decide) _

end Binary64

/-- A double-precision number. -/
inductive Binary64 where
  | nan
  | infinite (negative : Bool)
  | finite (negative : Bool) (units : Nat) (representable : Binary64.Representable units)
  deriving DecidableEq

namespace Binary64

/-- The double nearest to `n / d` units; quotients that round to `limit` or above
become infinite. -/
def ofUnits (negative : Bool) (n d : Nat) : Binary64 :=
  if h : nearest n d < limit then .finite negative (nearest n d) ⟨nearest_dvd n d, h⟩
  else .infinite negative

/-- The double nearest to the quotient `n / d`. -/
def ofRatio (negative : Bool) (n d : Nat) : Binary64 :=
  ofUnits negative (n * one) d

/-- The double nearest to a natural number. -/
def ofNat (n : Nat) : Binary64 := ofRatio false n 1

/-- Positive zero. -/
def zero : Binary64 := .finite false 0 representable_zero

instance : Inhabited Binary64 := ⟨zero⟩

/-- The value of a finite magnitude with its sign, in units. -/
def signed (negative : Bool) (units : Nat) : Int :=
  if negative then -(units : Int) else units

def isNaN : Binary64 → Bool
  | .nan => true
  | _ => false

def isFinite : Binary64 → Bool
  | .finite .. => true
  | _ => false

/-- The number with its sign turned round. -/
def neg : Binary64 → Binary64
  | .nan => .nan
  | .infinite s => .infinite !s
  | .finite s k h => .finite (!s) k h

/-- The rounded sum.  A sum that cancels is positive zero; two negative zeros stay
negative. -/
def add : Binary64 → Binary64 → Binary64
  | .nan, _ => .nan
  | _, .nan => .nan
  | .infinite s, .infinite t => if s = t then .infinite s else .nan
  | .infinite s, .finite .. => .infinite s
  | .finite .., .infinite t => .infinite t
  | .finite s k _, .finite t l _ =>
      let sum := signed s k + signed t l
      if sum = 0 then .finite (s && t) 0 representable_zero
      else ofUnits (sum < 0) sum.natAbs 1

/-- The rounded difference. -/
def sub (x y : Binary64) : Binary64 := x.add y.neg

/-- The rounded product. -/
def mul : Binary64 → Binary64 → Binary64
  | .nan, _ => .nan
  | _, .nan => .nan
  | .infinite s, .infinite t => .infinite (s ^^ t)
  | .infinite s, .finite t l _ => if l = 0 then .nan else .infinite (s ^^ t)
  | .finite s k _, .infinite t => if k = 0 then .nan else .infinite (s ^^ t)
  | .finite s k _, .finite t l _ => ofUnits (s ^^ t) (k * l) one

/-- The rounded quotient by a natural number that is itself a double. -/
def divNat (x : Binary64) (d : Nat) : Binary64 :=
  match x with
  | .finite s k _ => ofUnits s k d
  | x => x

/-- Strictly less; nothing compares with what is no number. -/
def lt : Binary64 → Binary64 → Bool
  | .nan, _ => false
  | _, .nan => false
  | .infinite s, .infinite t => s && !t
  | .infinite s, .finite .. => s
  | .finite .., .infinite t => !t
  | .finite s k _, .finite t l _ => signed s k < signed t l

/-- Less or equal; nothing compares with what is no number. -/
def le : Binary64 → Binary64 → Bool
  | .nan, _ => false
  | _, .nan => false
  | .infinite s, .infinite t => s || !t
  | .infinite s, .finite .. => s
  | .finite .., .infinite t => !t
  | .finite s k _, .finite t l _ => signed s k ≤ signed t l

/-- Equality of numbers: the two zeros are equal, and what is no number equals
nothing. -/
def same (x y : Binary64) : Bool := x.le y && y.le x

/-! ## The 64-bit form -/

/-- The number that a 64-bit pattern stands for: a sign bit, eleven bits of
exponent and 52 bits of fraction. -/
def ofBits (bits : UInt64) : Binary64 :=
  let negative := bits.toNat / 2 ^ 63 % 2 = 1
  let exponent := bits.toNat / 2 ^ 52 % 2048
  let fraction := bits.toNat % 2 ^ 52
  if h : 2046 < exponent then
    if fraction = 0 then .infinite negative else .nan
  else if exponent = 0 then
    .finite negative (fraction * 2 ^ 0)
      (representable_mul_two_pow (by omega) (Nat.zero_le _))
  else
    .finite negative ((2 ^ 52 + fraction) * 2 ^ (exponent - 1))
      (representable_mul_two_pow (by omega) (by unfold topShift; omega))

/-- The 64-bit pattern of a magnitude: consecutive magnitudes have consecutive
patterns. -/
def magnitudeBits (k : Nat) : Nat :=
  (k.log2 - 52) * 2 ^ 52 + k / 2 ^ (k.log2 - 52)

/-- The 64-bit pattern of a number; what is no number has the quiet positive one. -/
def toBits : Binary64 → UInt64
  | .nan => 0x7ff8000000000000
  | .infinite s => if s then 0xfff0000000000000 else 0x7ff0000000000000
  | .finite s k _ => .ofNat ((if s then 2 ^ 63 else 0) + magnitudeBits k)

end Binary64

end Redelivery
