import Redelivery.Backlog
import Redelivery.Port
import Redelivery.Settings.Basic
import Redelivery.Stats
import Redelivery.Tracking

/-!
# The redelivery layer

A layer goes around a port whose receipts can only be used to report success.  Every
batch read through the layer is kept until success is reported.  A failure puts the
batch, or the parts of it that failed, into the backlog, and the backlog is served
before anything new is read.  Redelivery never gives up.

A read goes through these phases:

* With something in the backlog, the first entry is taken; once it has been delivered
  again often enough, its reader pauses first, and puts it back if the caller cancels.
* Otherwise the read's own scope is armed and the port inside is asked.  A failure
  that is reported meanwhile cancels that scope, and the caller reads again.
* When the port inside has ended while batches are still out, the end is held back:
  the reader looks from time to time whether all have been acknowledged.

Main definitions:

* `Layer`, `Layer.Reading`, `Held`: state, reads in progress and receipts.
* `retrySubset`: what is delivered again after a failure.
* `Layer.start`, `Layer.step`, `Layer.connect`, `Layer.settle`: the operations.
* `Layer.port`: the layer as a port.
-/

namespace Redelivery

/-! ## What is delivered again -/

/-- Adds what was kept of a failed part to what was found before, and stops at a failed
part that cannot be traced back. -/
def collectFailed (kept : Batch) (group : Group) (_ : Nat) (part : Part)
    (error : Option String) (found : Option Batch) : ForInStep (Option Batch) :=
  if error.isNone then .yield found
  else
    match (group.indexOf part).bind fun index => kept[index]? with
    | some part => .yield (found.map (· ++ [part]))
    | none => .done none

/-- The parts of a batch that have to be delivered again.  Only a failure that names
parts, and fewer of them than there are, narrows the batch, and only if all of them
can be traced back to it. -/
def retrySubset (kept : Batch) (group : Group) : Failure → Batch
  | .whole _ => kept
  | .parts failure =>
      if kept.length ≤ failure.errorCount then kept
      else
        match failure.walk (collectFailed kept group) (some []) with
        | none => kept
        | some [] => kept
        | some subset => subset

/-- The receipt of a layer: the entry that was delivered, and the group that its parts
were tagged with. -/
structure Held (ρ : Type) where
  entry : Entry ρ
  group : Option Group

/-- The entry as it is delivered next after a failure. -/
def Held.afterFailure {ρ : Type} (held : Held ρ) (failure : Failure) : Entry ρ :=
  match held.group with
  | none => held.entry
  | some group => { held.entry with batch := retrySubset held.entry.batch group failure }

/-- The state of a layer around a port. -/
structure Layer (P : Port) where
  backlog : Backlog P.Receipt
  /-- Batches read from the port inside and not yet acknowledged with success. -/
  pending : Int
  /-- The port inside has ended while batches were pending. -/
  inputClosed : Bool
  inner : P.State

namespace Layer

variable {P : Port}

/-- A read in progress. -/
inductive Reading (P : Port) where
  /-- The backlog was empty, and `scope` is armed. -/
  | armed (scope : Scope)
  /-- The port inside has been asked. -/
  | asking (scope : Scope) (read : P.Read)
  /-- An entry waits for the end of its delay. -/
  | pacing (caller scope : Scope) (entry : Entry P.Receipt) (due : Nat)
  /-- The end of the port inside is held back until the next look. -/
  | draining (scope : Scope) (due : Nat)

/-- What a step of a layer's read comes to. -/
abbrev Going (P : Port) := Progress (Reading P) (Held P.Receipt)

/-- A layer around a port that has not been used. -/
def new (inner : P.State) (interrupt : Scope) : Layer P :=
  ⟨.empty interrupt, 0, false, inner⟩

/-- A look at the layer. -/
def stats (layer : Layer P) : Stats where
  queued := layer.backlog.size
  inFlight := layer.pending
  sourceClosed := layer.inputClosed
  maxAttempts := layer.backlog.maxAttempts
  oldestFailure := layer.backlog.oldestFailure

/-- Ends a read; its scope ends with it. -/
def finish (scope : Scope) (answer : Answer (Held P.Receipt)) : Act (Layer P) (Going P) :=
  fun a layer => (.ended answer, a.cancel scope, layer)

/-- Hands an entry out and ends the read.  A single part is handed out as it is; other
batches are tagged, so that a failure of some parts can be traced back. -/
def deliver (scope : Scope) (entry : Entry P.Receipt) : Act (Layer P) (Going P) :=
  fun a layer =>
    if entry.batch.length = 1 then
      finish scope (.delivered entry.batch ⟨entry, none⟩) a layer
    else
      let (group, batch, mint) := a.mint.track entry.batch
      finish scope (.delivered batch ⟨entry, some group⟩) { a with mint } layer

/-- Begins to deliver an entry of the backlog again: at once, or after a delay if it has
been delivered again often enough. -/
def redeliver (settings : Settings) (choice : Choice) (caller scope : Scope)
    (entry : Entry P.Receipt) : Act (Layer P) (Going P) :=
  fun a layer =>
    let again := { entry with attempts := entry.attempts + 1 }
    if settings.backoffAfter < again.attempts then
      match entry.backoff.next choice.pick with
      | .error reason => finish scope (.died reason.message) a layer
      | .ok (delay, backoff) =>
          if delay.isZero then deliver scope { again with backoff } a layer
          else
            (.going (.pacing caller scope { entry with backoff } (a.now + delay.clockMillis)),
              a, layer)
    else deliver scope again a layer

/-- Begins a read: takes the first entry of the backlog, or arms the read's scope. -/
def start (settings : Settings) (choice : Choice) (caller : Scope) : Act (Layer P) (Going P) :=
  fun a layer =>
    let (scope, a) := a.childScope caller
    match layer.backlog.takeOrArm scope with
    | (some entry, backlog) =>
        redeliver settings choice caller scope entry a { layer with backlog }
    | (none, backlog) => (.going (.armed scope), a, { layer with backlog })

/-- The port inside has ended: so has the layer if nothing is pending, and otherwise the
end is held back. -/
def drain (settings : Settings) (scope : Scope) : Act (Layer P) (Going P) :=
  fun a layer =>
    if layer.pending ≤ 0 then finish scope (.failed .closed) a layer
    else
      (.going (.draining scope (a.now + settings.drainPoll.clockMillis)), a,
        { layer with inputClosed := true })

/-- Takes the answer of the port inside: a batch is counted and handed out, its end may
be held back, and other errors are passed on. -/
def answered (settings : Settings) (scope : Scope) (answer : Answer P.Receipt) :
    Act (Layer P) (Going P) :=
  fun a layer =>
    match answer with
    | .delivered batch receipt =>
        deliver scope (.fresh batch receipt settings.backoff) a
          { layer with pending := layer.pending + 1 }
    | .failed .closed => drain settings scope a layer
    | .failed error => finish scope (.failed error) a layer
    | .died reason => finish scope (.died reason) a layer

/-- What a step of the port inside comes to for the layer. -/
def asked (settings : Settings) (scope : Scope) :
    Progress P.Read P.Receipt × Ambient × P.State → Layer P → Going P × Ambient × Layer P
  | (.going read, a, inner), layer => (.going (.asking scope read), a, { layer with inner })
  | (.ended answer, a, inner), layer =>
      answered settings scope answer a { layer with inner }

/-- A step of a read. -/
def step (settings : Settings) (choice : Choice) (read : Reading P) (a : Ambient)
    (layer : Layer P) : Option (Going P × Ambient × Layer P) :=
  match read with
  | .armed scope =>
      if layer.inputClosed then some (drain settings scope a layer)
      else some (asked settings scope (P.start choice scope a layer.inner) layer)
  | .asking scope read =>
      (P.step choice read a layer.inner).map fun result => asked settings scope result layer
  | .pacing caller scope entry due =>
      (choice.waited (a.scopes.IsCancelled caller) (due ≤ a.now)).map fun cancelled =>
        if cancelled then
          finish scope (.failed .cancelled) a
            { layer with backlog := layer.backlog.putBack entry }
        else deliver scope { entry with attempts := entry.attempts + 1 } a layer
  | .draining scope due =>
      (choice.waited (a.scopes.IsCancelled scope) (due ≤ a.now)).map fun cancelled =>
        if cancelled then finish scope (.failed .timeout) a layer
        else drain settings scope a layer

/-- When a blocked read can go on by itself. -/
def wake (read : Reading P) (layer : Layer P) : Option Nat :=
  match read with
  | .armed _ => none
  | .asking _ read => P.wake read layer.inner
  | .pacing _ _ _ due => some due
  | .draining _ due => some due

/-- Connects the port inside.  Its end is held back while batches are pending, and then
nothing more is read from it. -/
def connect (caller : Scope) : Act (Layer P) (Except ReadError Unit) :=
  fun a layer =>
    let (result, a, inner) := P.connect caller a layer.inner
    let layer := { layer with inner }
    match result with
    | .error .closed =>
        if 0 < layer.pending then (.ok (), a, { layer with inputClosed := true })
        else (.error .closed, a, layer)
    | result => (result, a, layer)

/-- Closes the port inside. -/
def close (caller : Scope) : Act (Layer P) (Except ReadError Unit) :=
  fun a layer =>
    let (result, a, inner) := P.close caller a layer.inner
    (result, a, { layer with inner })

/-- Takes the report on a delivery.  Success is passed on to the port inside; a failure
goes into the backlog and is never passed on. -/
def settle (held : Held P.Receipt) (outcome : Outcome) : Act (Layer P) Settlement :=
  fun a layer =>
    match outcome with
    | .processed =>
        let (settlement, a, inner) := P.settle held.entry.receipt .processed a layer.inner
        (settlement, a, { layer with inner, pending := layer.pending - 1 })
    | .failed failure =>
        let (backlog, scopes) := layer.backlog.append (held.afterFailure failure) a.wall a.scopes
        (.accepted, { a with scopes }, { layer with backlog })

/-- The layer as a port. -/
abbrev port (settings : Settings) (P : Port) : Port where
  State := Layer P
  Read := Reading P
  Receipt := Held P.Receipt
  connect := connect
  close := close
  start := start settings
  step := step settings
  wake := wake
  settle := settle

end Layer

end Redelivery
