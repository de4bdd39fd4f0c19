import Redelivery.Backoff
import Redelivery.Error
import Redelivery.Failure
import Redelivery.Scope
import Redelivery.Timestamp

/-!
# Ports

A port is where batches are read: a source, or a layer around one.  Its operations
are steps on a state.  A read that has begun goes on in steps until it ends; between
two steps it may be blocked, and other reads, acknowledgments and the clock may move.
What a reader is given with a batch is a receipt, by which the outcome of processing
is reported back.

Whatever chance decides in a step comes in from outside, so that a statement about all
choices is a statement about all runs.

Main definitions:

* `Ambient`: the clock, the scopes and the mint, which all ports share.
* `Choice`: what chance decides in one step.
* `Port`: the state, the reads and the receipts of a port, and its operations.
-/

namespace Redelivery

/-- What is shared by everything that runs. -/
structure Ambient where
  /-- Milliseconds that have passed. -/
  now : Nat
  /-- The time of day. -/
  wall : Timestamp
  scopes : Scopes
  mint : Mint

namespace Ambient

/-- Nothing has happened, at some time of day. -/
def start (wall : Timestamp) : Ambient := ⟨0, wall, .empty, .empty⟩

/-- A new scope inside no other. -/
def freshScope (a : Ambient) : Scope × Ambient :=
  let (scope, scopes) := a.scopes.fresh
  (scope, { a with scopes })

/-- A new scope inside another. -/
def childScope (a : Ambient) (outer : Scope) : Scope × Ambient :=
  let (scope, scopes) := a.scopes.child outer
  (scope, { a with scopes })

/-- Cancels a scope. -/
def cancel (a : Ambient) (scope : Scope) : Ambient :=
  { a with scopes := a.scopes.cancel scope }

/-- So many milliseconds pass. -/
def advance (a : Ambient) (ms : Nat) : Ambient :=
  { a with now := a.now + ms, wall := a.wall.addMillis ms }

end Ambient

/-- What chance decides in one step. -/
structure Choice where
  /-- Of a cancellation and something else that are both there, the cancellation is
  seen first. -/
  cancelFirst : Bool
  /-- Where in its range a jittered delay falls. -/
  pick : Pick

/-- Whether a wait for something that is `due` or for cancellation is over, and if so
whether by cancellation. -/
def Choice.waited (choice : Choice) (cancelled due : Bool) : Option Bool :=
  if cancelled && (choice.cancelFirst || !due) then some true
  else if due then some false
  else none

/-- How a read ends. -/
inductive Answer (ρ : Type) where
  | delivered (batch : Batch) (receipt : ρ)
  | failed (error : ReadError)
  /-- The read broke off without an answer. -/
  | died (reason : String)

/-- What a step of a read comes to. -/
inductive Progress (θ ρ : Type) where
  | going (read : θ)
  | ended (answer : Answer ρ)

/-- What comes back when an outcome is reported. -/
inductive Settlement where
  | accepted
  | rejected (error : SettleError)
  /-- The acknowledgment broke off without an answer. -/
  | died
  deriving DecidableEq, Repr

/-- A step on a state of type `σ`, with the result `α`. -/
abbrev Act (σ α : Type) := Ambient → σ → α × Ambient × σ

/-- Where batches are read. -/
structure Port where
  State : Type
  /-- A read in progress. -/
  Read : Type
  Receipt : Type
  /-- Establishes the connection, or establishes it again. -/
  connect : Scope → Act State (Except ReadError Unit)
  /-- Shuts the port down. -/
  close : Scope → Act State (Except ReadError Unit)
  /-- Begins a read in a scope. -/
  start : Choice → Scope → Act State (Progress Read Receipt)
  /-- A step of a read; `none` if it is blocked. -/
  step : Choice → Read → Ambient → State → Option (Progress Read Receipt × Ambient × State)
  /-- When a blocked read can go on by itself. -/
  wake : Read → State → Option Nat
  /-- Reports the outcome of processing a batch. -/
  settle : Receipt → Outcome → Act State Settlement

end Redelivery
