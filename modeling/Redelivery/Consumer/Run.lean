import Redelivery.Clock
import Redelivery.Consumer.Basic

/-!
# Running a consumer

On the virtual clock, the loop of a consumer goes on until it is blocked, then each of
its tasks does, and so on in turns.

Main definitions:

* `Consumer.settle`, `Consumer.timed`: a consumer on the clock.
* `Consumer.Event`, `Consumer.runEvents`: what happens to a consumer from outside.
-/

namespace Redelivery
namespace Consumer

variable {P : Port} {W : Processor}

/-- The loop takes steps until it is blocked, or until so many have been taken. -/
def runMain (choice : Choice) : Nat → Consumer P W → Consumer P W
  | 0, c => c
  | steps + 1, c =>
      match c.stepMain choice with
      | none => c
      | some c => runMain choice steps c

/-- A task takes both its steps, as far as it is not blocked. -/
def runTask (c : Consumer P W) (id : Nat) : Consumer P W :=
  match c.stepTask id with
  | none => c
  | some c => (c.stepTask id).getD c

/-- The task can take a step. -/
def canStep (c : Consumer P W) (task : Task W) : Bool :=
  match task.stage with
  | .spawned _ => true
  | .working _ due => due ≤ c.session.ambient.now

/-- The loop and the tasks go on in turns until all are blocked, for at most so many
turns of at most so many steps. -/
def settle (choice : Choice) (steps : Nat) : Nat → Consumer P W → Consumer P W
  | 0, c => c
  | turns + 1, c =>
      let c := c.runMain choice steps
      let ready := c.tasks.filter c.canStep
      if ready.isEmpty then c
      else settle choice steps turns ((ready.map Task.id).foldl runTask c)

/-- The next time at which something is due. -/
def wake? (c : Consumer P W) : Option Nat :=
  let main := match c.phase with
    | .pausing due => some due
    | _ => c.session.wake?
  let tasks := c.tasks.filterMap fun task =>
    match task.stage with
    | .spawned _ => none
    | .working _ due => some due
  (main.toList ++ tasks).min?

/-- A consumer on the clock, with a bound on the steps that are taken at one time. -/
def timed (choice : Choice) (steps : Nat) : Timed (Consumer P W) where
  now c := c.session.ambient.now
  settle := settle choice steps steps
  wake? := wake?
  pass c ms := { c with session := c.session.advance ms }
  ended := ended

/-- The same, for somebody who goes on to watch the port after the consumer has ended. -/
def watched (choice : Choice) (steps : Nat) : Timed (Consumer P W) :=
  { timed choice steps with ended := fun _ => false }

/-- What happens to a consumer from outside, and when. -/
structure Event (P : Port) (W : Processor) where
  time : Nat
  apply : Consumer P W → Consumer P W

/-- Runs a consumer through events, in their order.  Before each event everything goes on
that can, also between events of one time. -/
def runEvents (choice : Choice) (steps : Nat) :
    List (Event P W) → Consumer P W → Consumer P W
  | [], c => c
  | event :: rest, c =>
      let c := (watched choice steps).runTo event.time c
      runEvents choice steps rest (event.apply c)

/-- Waits for the end of a consumer, at most so many milliseconds. -/
def await (choice : Choice) (steps : Nat) (limit : Nat) (c : Consumer P W) : Consumer P W :=
  (timed choice steps).runTo (c.session.ambient.now + limit) c

end Consumer
end Redelivery
