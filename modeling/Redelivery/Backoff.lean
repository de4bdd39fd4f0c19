import Redelivery.Duration

/-!
# Backoff

An entry that keeps failing is handed out again after growing delays.  A policy
gives the first interval, the ceiling, the growth factor and the share of an
interval by which a delay may be jittered; a `Backoff` is one entry's position in
its series.

The interval grows before the delay is drawn, and growth is computed in seconds as
doubles: as long as the product stays below the ceiling it is rounded to
nanoseconds, and otherwise the ceiling itself is next.

Main definitions:

* `Policy`, `Policy.start`: the parameters and the start of a series.
* `Backoff.grown`: the interval after the present one.
* `Backoff.range`: the closed range a jittered delay is drawn from, if there is one.
* `Backoff.next`: the next delay and the advanced series.
-/

namespace Redelivery

/-- How the delays between redeliveries grow. -/
structure Policy where
  /-- The first delay. -/
  initial : Duration
  /-- The longest interval, before jitter. -/
  ceiling : Duration
  /-- The growth factor; anything but a number of at least one means no growth. -/
  multiplier : Binary64
  /-- The jitter: a delay lies within this share of its interval. -/
  randomization : Binary64
  deriving DecidableEq

/-- From one millisecond up to a second, a tenth longer each time, without jitter. -/
def Policy.default : Policy where
  initial := .ofMillis 1
  ceiling := .ofMillis 1000
  multiplier := .ofRatio false 11 10
  randomization := .zero

instance : Inhabited Policy := ⟨.default⟩

/-- One entry's position in the series of its policy. -/
structure Backoff where
  policy : Policy
  /-- The interval that the next delay is based on. -/
  current : Duration
  deriving DecidableEq, Inhabited

/-- The start of the series: the first interval, or the ceiling if that is less. -/
def Policy.start (policy : Policy) : Backoff :=
  ⟨policy, min policy.initial policy.ceiling⟩

/-- A way to pick a number between two others. -/
abbrev Pick := Binary64 → Binary64 → Binary64

namespace Backoff

/-- The growth factor that is used: the policy's, or one where that would not grow. -/
def factor (b : Backoff) : Binary64 :=
  if (Binary64.ofNat 1).le b.policy.multiplier then b.policy.multiplier else .ofNat 1

/-- The interval after the present one. -/
def grown (b : Backoff) : Except Duration.OutOfRange Duration :=
  let seconds := b.current.toSeconds.mul b.factor
  if seconds.lt b.policy.ceiling.toSeconds then Duration.ofSeconds? seconds
  else .ok b.policy.ceiling

/-- The share of an interval by which its delay is jittered; `none` for a policy
without jitter. -/
def jitter? (randomization : Binary64) : Option Binary64 :=
  if Binary64.zero.lt randomization then
    some (if randomization.lt (.ofNat 1) then randomization else .ofNat 1)
  else none

/-- The closed range from which the delay of an interval is drawn; `none` if the delay
is the interval itself. -/
def range (interval : Duration) (randomization : Binary64) : Option (Binary64 × Binary64) :=
  if interval.isZero then none
  else (jitter? randomization).map fun share =>
    let seconds := interval.toSeconds
    let reach := seconds.mul share
    (seconds.sub reach, seconds.add reach)

/-- The number itself, or zero in place of a negative number or none. -/
def atLeastZero (x : Binary64) : Binary64 :=
  if Binary64.zero.lt x then x else .zero

/-- The delay for an interval, drawn by `pick` if the policy has jitter. -/
def delay (pick : Pick) (interval : Duration) (randomization : Binary64) :
    Except Duration.OutOfRange Duration :=
  match range interval randomization with
  | none => .ok interval
  | some (low, high) => Duration.ofSeconds? (atLeastZero (pick low high))

/-- The next delay, with the series advanced. -/
def next (pick : Pick) (b : Backoff) : Except Duration.OutOfRange (Duration × Backoff) := do
  let current ← b.grown
  let wait ← delay pick b.current b.policy.randomization
  return (wait, { b with current })

end Backoff

end Redelivery
