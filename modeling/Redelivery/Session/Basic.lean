import Redelivery.Port

/-!
# Sessions

A session is a port in use: reads that are in progress, and batches that were
delivered and are not yet reported on.  Everything that happens to a port happens in
one of these steps: a read begins, takes a step and ends; an outcome is reported; the
port is connected or closed; a scope is cancelled; time passes; or the port changes by
itself, as when something is pushed into a source.

Main definitions:

* `Session`: the state.
* `Session.startRead`, `Session.stepRead`, `Session.report`: reads and reports.
* `Session.connect`, `Session.close`, `Session.advance`, `Session.change`: the rest.
* `Session.wake?`: the time at which some blocked read can go on by itself.
-/

namespace Redelivery

/-- A read in progress. -/
structure Reader (P : Port) where
  id : Nat
  read : P.Read

/-- A batch that was delivered to a reader and is not yet reported on. -/
structure Delivery (P : Port) where
  id : Nat
  batch : Batch
  receipt : P.Receipt

/-- What a reader is told at the end of its read. -/
inductive Reply where
  | delivered (batch : Batch)
  | failed (error : ReadError)
  | died (reason : String)

/-- A port in use. -/
structure Session (P : Port) where
  ambient : Ambient
  state : P.State
  /-- The reads in progress, in the order in which they began. -/
  readers : List (Reader P)
  /-- The deliveries that are not yet reported on. -/
  deliveries : List (Delivery P)
  /-- The number of the next reader; its delivery has the same number. -/
  next : Nat

namespace Session

variable {P : Port}

/-- A port that nobody has used. -/
def new (ambient : Ambient) (state : P.State) : Session P := ⟨ambient, state, [], [], 0⟩

/-- The session without a reader. -/
def dropReader (s : Session P) (id : Nat) : Session P :=
  { s with readers := s.readers.filter (·.id ≠ id) }

/-- Takes the answer to a read whose reader has gone: a batch becomes a delivery. -/
def conclude (s : Session P) (id : Nat) : Answer P.Receipt → Reply × Session P
  | .delivered batch receipt =>
      (.delivered batch, { s with deliveries := s.deliveries ++ [⟨id, batch, receipt⟩] })
  | .failed error => (.failed error, s)
  | .died reason => (.died reason, s)

/-- Begins a read in a scope, under the number `next`.  A read may end as it begins. -/
def startRead (s : Session P) (choice : Choice) (scope : Scope) : Option Reply × Session P :=
  let (progress, ambient, state) := P.start choice scope s.ambient s.state
  let id := s.next
  let s := { s with ambient, state, next := id + 1 }
  match progress with
  | .going read => (none, { s with readers := s.readers ++ [⟨id, read⟩] })
  | .ended answer =>
      let (reply, s) := s.conclude id answer
      (some reply, s)

/-- A step of a read; `none` if it is blocked or not in progress. -/
def stepRead (s : Session P) (choice : Choice) (id : Nat) :
    Option (Option Reply × Session P) := do
  let reader ← s.readers.find? (·.id = id)
  let (progress, ambient, state) ← P.step choice reader.read s.ambient s.state
  let s := { s with ambient, state }
  match progress with
  | .going read =>
      return (none, { s with
        readers := s.readers.map fun r => if r.id = id then ⟨id, read⟩ else r })
  | .ended answer =>
      let (reply, s) := (s.dropReader id).conclude id answer
      return (some reply, s)

/-- Reports the outcome of a delivery; `none` if nothing was delivered under the number,
or it was reported on already. -/
def report (s : Session P) (id : Nat) (outcome : Outcome) : Option (Settlement × Session P) := do
  let delivery ← s.deliveries.find? (·.id = id)
  let (settlement, ambient, state) := P.settle delivery.receipt outcome s.ambient s.state
  return (settlement, { s with
    ambient, state, deliveries := s.deliveries.filter (·.id ≠ id) })

/-- Connects the port. -/
def connect (s : Session P) (scope : Scope) : Except ReadError Unit × Session P :=
  let (result, ambient, state) := P.connect scope s.ambient s.state
  (result, { s with ambient, state })

/-- Closes the port. -/
def close (s : Session P) (scope : Scope) : Except ReadError Unit × Session P :=
  let (result, ambient, state) := P.close scope s.ambient s.state
  (result, { s with ambient, state })

/-- Time passes. -/
def advance (s : Session P) (ms : Nat) : Session P :=
  { s with ambient := s.ambient.advance ms }

/-- The port changes by itself. -/
def change (s : Session P) (f : P.State → P.State) : Session P :=
  { s with state := f s.state }

/-- A new scope, cancelled from the beginning or not. -/
def scope (s : Session P) (cancelled : Bool) : Scope × Session P :=
  let (scope, ambient) := s.ambient.freshScope
  (scope, { s with ambient := if cancelled then ambient.cancel scope else ambient })

/-- Cancels a scope. -/
def cancel (s : Session P) (scope : Scope) : Session P :=
  { s with ambient := s.ambient.cancel scope }

/-- The first time at which a blocked read can go on by itself. -/
def wake? (s : Session P) : Option Nat :=
  (s.readers.filterMap fun r => P.wake r.read s.state).min?

end Session

end Redelivery
