import Redelivery.Clock
import Redelivery.Session.Basic

/-!
# Running a session

On the virtual clock, the reads of a session go on by themselves: of those that can
take a step, the one that began first does.  What the readers are told at the end is
kept until somebody looks.

Main definitions:

* `Finished`: the end of a read.
* `Running`, `Running.settle`, `Running.timed`: a session with what has ended in it.
-/

namespace Redelivery

/-- The end of a read: whose, when, and with what reply. -/
structure Finished where
  id : Nat
  time : Nat
  reply : Reply

/-- A session together with the reads that ended since somebody looked. -/
structure Running (P : Port) where
  session : Session P
  finished : List Finished

namespace Running

variable {P : Port}

/-- Writes down the end of a read. -/
def record (session : Session P) (finished : List Finished) (id : Nat) (reply : Option Reply) :
    Running P :=
  ⟨session, finished ++ (reply.map fun reply => ⟨id, session.ambient.now, reply⟩).toList⟩

/-- Begins a read in a scope. -/
def startRead (choice : Choice) (scope : Scope) (r : Running P) : Running P :=
  let (reply, session) := r.session.startRead choice scope
  record session r.finished r.session.next reply

/-- The first reader that can take a step takes it. -/
def step? (choice : Choice) (r : Running P) : Option (Running P) :=
  r.session.readers.findSome? fun reader =>
    (r.session.stepRead choice reader.id).map fun (reply, session) =>
      record session r.finished reader.id reply

/-- Readers take steps until all are blocked, or until so many have been taken. -/
def settle (choice : Choice) : Nat → Running P → Running P
  | 0, r => r
  | steps + 1, r =>
      match r.step? choice with
      | none => r
      | some r => settle choice steps r

/-- A session on the clock, with a bound on the steps that are taken at one time. -/
def timed (choice : Choice) (steps : Nat) : Timed (Running P) where
  now r := r.session.ambient.now
  settle := settle choice steps
  wake? r := r.session.wake?
  pass r ms := { r with session := r.session.advance ms }
  ended _ := false

end Running

end Redelivery
