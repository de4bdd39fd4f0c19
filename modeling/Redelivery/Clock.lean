/-!
# A virtual clock

Time stands still as long as anything can go on.  When all that is left is waiting,
the clock moves to the next time at which something is due.

Main definitions:

* `Timed`: a system that runs on the clock.
* `Timed.runTo`: runs a system up to a given time, or until it has ended.
-/

namespace Redelivery

/-- A system that runs on the clock. -/
structure Timed (σ : Type) where
  now : σ → Nat
  /-- Everything that can go on goes on, without any time passing. -/
  settle : σ → σ
  /-- The next time at which something is due. -/
  wake? : σ → Option Nat
  /-- So many milliseconds pass. -/
  pass : σ → Nat → σ
  /-- There is nothing left to wait for. -/
  ended : σ → Bool

namespace Timed

variable {σ : Type} (system : Timed σ)

/-- The next time to which the clock moves on its way to `target`. -/
def nextStop (s : σ) (target : Nat) : Nat :=
  match system.wake? s with
  | some due => min target (max due (system.now s))
  | none => target

/-- Lets everything go on and then moves the clock, for at most so many moves. -/
def runFor (target : Nat) : Nat → σ → σ
  | 0, s => system.settle s
  | moves + 1, s =>
      let s := system.settle s
      if system.ended s || target ≤ system.now s then s
      else runFor target moves (system.pass s (system.nextStop s target - system.now s))

/-- Runs a system up to a given time, or until it has ended.  Each move takes at least a
millisecond. -/
def runTo (target : Nat) (s : σ) : σ :=
  system.runFor target (target - system.now s) s

end Timed

end Redelivery
