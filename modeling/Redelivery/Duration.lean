import Redelivery.Binary64.Basic

/-!
# Durations

A duration is a whole number of nanoseconds below `2 ^ 64` seconds.  It is turned
into seconds as a double by converting whole seconds and the remaining nanoseconds
separately, and back by rounding to the nearest nanosecond.

Main definitions:

* `Duration`: a bounded number of nanoseconds.
* `Duration.toSeconds`, `Duration.ofSeconds?`: the two conversions.
* `Duration.wholeMillis`, `Duration.clockMillis`: milliseconds rounded down for
  display and rounded up for a clock that ticks in milliseconds.
-/

namespace Redelivery

/-- Nanoseconds in a second. -/
def nanosPerSecond : Nat := 1000000000

/-- Nanoseconds in a millisecond. -/
def nanosPerMilli : Nat := 1000000

/-- A span of time in whole nanoseconds. -/
structure Duration where
  nanos : Nat
  bounded : nanos < 2 ^ 64 * nanosPerSecond
  deriving DecidableEq

namespace Duration

theorem ext_nanos {d e : Duration} (h : d.nanos = e.nanos) : d = e := by
  cases d
  cases e
  simp_all

/-- The duration of so many nanoseconds, or the longest one if they are too many. -/
def ofNanos (n : Nat) : Duration :=
  ⟨min n (2 ^ 64 * nanosPerSecond - 1), by unfold nanosPerSecond; omega⟩

theorem nanos_ofNanos {n : Nat} (h : n < 2 ^ 64 * nanosPerSecond) :
    (ofNanos n).nanos = n := by
  simp only [ofNanos]
  omega

/-- No time at all. -/
def zero : Duration := ⟨0, by decide⟩

instance : Inhabited Duration := ⟨zero⟩

/-- Whole milliseconds. -/
def ofMillis (ms : UInt64) : Duration :=
  ⟨ms.toNat * nanosPerMilli, by
    have := ms.toNat_lt
    unfold nanosPerMilli nanosPerSecond
    omega⟩

def isZero (d : Duration) : Bool := d.nanos = 0

instance : LE Duration := ⟨fun d e => d.nanos ≤ e.nanos⟩

instance : LT Duration := ⟨fun d e => d.nanos < e.nanos⟩

instance (d e : Duration) : Decidable (d ≤ e) :=
  inferInstanceAs (Decidable (d.nanos ≤ e.nanos))

instance (d e : Duration) : Decidable (d < e) :=
  inferInstanceAs (Decidable (d.nanos < e.nanos))

/-- The shorter of two durations. -/
instance : Min Duration := ⟨fun d e => if d ≤ e then d else e⟩

/-- Milliseconds, rounded down; more than 64 bits can hold are written as the most
that they can. -/
def wholeMillis (d : Duration) : UInt64 :=
  .ofNat (min (d.nanos / nanosPerMilli) (2 ^ 64 - 1))

/-- Milliseconds, rounded up: the ticks of a millisecond clock that a sleep takes. -/
def clockMillis (d : Duration) : Nat :=
  (d.nanos + (nanosPerMilli - 1)) / nanosPerMilli

/-! ## Seconds as a double -/

/-- The duration in seconds: whole seconds plus nanoseconds over a billion, each of
the three steps rounded. -/
def toSeconds (d : Duration) : Binary64 :=
  (Binary64.ofNat (d.nanos / nanosPerSecond)).add
    ((Binary64.ofNat (d.nanos % nanosPerSecond)).divNat nanosPerSecond)

/-- Why a number of seconds is no duration. -/
inductive OutOfRange where
  | negative
  | tooLong
  deriving DecidableEq, Repr

namespace OutOfRange

def message : OutOfRange → String
  | negative => "cannot convert float seconds to Duration: value is negative"
  | tooLong => "cannot convert float seconds to Duration: value is either too big or NaN"

end OutOfRange

/-- Units of a double in `2 ^ 64` seconds. -/
def tooManyUnits : Nat := 2 ^ 64 * Binary64.one

/-- The duration nearest to a number of seconds, a half nanosecond going to the even
neighbour. -/
def ofSeconds? : Binary64 → Except OutOfRange Duration
  | .nan => .error .tooLong
  | .infinite negative => .error (if negative then .negative else .tooLong)
  | .finite negative k _ =>
      if negative && k ≠ 0 then .error .negative
      else if k < tooManyUnits then
        .ok (ofNanos (roundDiv (k * nanosPerSecond) Binary64.one))
      else .error .tooLong

end Duration

end Redelivery
