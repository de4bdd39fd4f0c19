import Redelivery.Backoff
import Redelivery.Binary64.Decimal

/-!
# Settings

The settings of a redelivery layer say how redeliveries are paced and how often a
draining read looks whether everything has been acknowledged.

Main definitions:

* `Settings`, `Settings.default`: the settings.
* `Settings.problem?`: the first value that the arithmetic of backoff cannot work with.
* `Settings.same`: equality of settings, in which a number that is none equals nothing.
-/

namespace Redelivery

/-- The settings of a redelivery layer. -/
structure Settings where
  /-- The pace of redeliveries beyond `backoffAfter`. -/
  backoff : Policy
  /-- How many redeliveries of an entry happen without a delay. -/
  backoffAfter : UInt32
  /-- How often a draining read looks whether everything has been acknowledged. -/
  drainPoll : Duration
  deriving DecidableEq

namespace Settings

/-- Two redeliveries without a delay, and a look every ten milliseconds. -/
def default : Settings where
  backoff := .default
  backoffAfter := 2
  drainPoll := .ofMillis 10

instance : Inhabited Settings := ⟨default⟩

/-- The settings agree, their doubles compared as numbers. -/
def same (x y : Settings) : Bool :=
  x.backoff.initial = y.backoff.initial && x.backoff.ceiling = y.backoff.ceiling &&
    x.backoff.multiplier.same y.backoff.multiplier &&
    x.backoff.randomization.same y.backoff.randomization &&
    x.backoffAfter = y.backoffAfter && x.drainPoll = y.drainPoll

/-- What is wrong with some settings. -/
inductive Problem where
  | multiplier (got : Binary64)
  | randomization (got : Binary64)
  | zeroCeiling
  | zeroPoll
  deriving DecidableEq

/-- A double in a message: all digits are written out, and a whole number has no
point. -/
def floatLayout : Binary64.Layout where
  positional _ := true
  wholeEnd := ""
  exponentMark := ""
  tieUp := true

def Problem.message : Problem → String
  | multiplier got => "backoff.multiplier must be >= 1.0, got " ++ floatLayout.write got
  | randomization got =>
      "backoff.randomization_factor must be in [0, 1), got " ++ floatLayout.write got
  | zeroCeiling => "backoff.max_interval_ms must be > 0"
  | zeroPoll => "drain_poll_interval_ms must be > 0"

/-- The number lies in `[0, 1)`. -/
def isShare (x : Binary64) : Bool := Binary64.zero.le x && x.lt (.ofNat 1)

/-- The first thing that is wrong with the settings: backoff has to grow by a finite
factor, jitter has to leave a delay its sign, and neither the ceiling nor the interval
between looks may be zero. -/
def problem? (settings : Settings) : Option Problem :=
  let backoff := settings.backoff
  if !backoff.multiplier.isFinite || backoff.multiplier.lt (.ofNat 1) then
    some (.multiplier backoff.multiplier)
  else if !isShare backoff.randomization then some (.randomization backoff.randomization)
  else if backoff.ceiling.isZero then some .zeroCeiling
  else if settings.drainPoll.isZero then some .zeroPoll
  else none

end Settings

end Redelivery
