import Redelivery.Report
import Redelivery.Session.Basic

/-!
# The consumer

A consumer reads one batch after the other, has each processed by a task of its own,
and reads again after a read that was cancelled or timed out.  Reports on batches thus
arrive in any order.  When the source ends, or shutdown is requested, it waits for the
tasks and then closes the port.

Main definitions:

* `Processor`: what processes a batch.
* `Consumer`, `Consumer.Phase`, `Task`: the state.
* `Consumer.stepMain`: a step of the loop that reads.
* `Consumer.stepTask`: a step of a task.
-/

namespace Redelivery

/-- What processes batches.  Processing begins, takes its time, and ends. -/
structure Processor where
  State : Type
  /-- Processing in progress. -/
  Job : Type
  /-- Begins to process a batch at some time, and says how long it takes. -/
  start : Nat → Batch → State → Job × Duration × State
  /-- Ends processing; `none` if it broke off. -/
  finish : Job → Mint → State → Option Outcome × Mint × State

/-- How far a task has come. -/
inductive Stage (W : Processor) where
  | spawned (batch : Batch)
  | working (job : W.Job) (due : Nat)

/-- A task that processes a delivery. -/
structure Task (W : Processor) where
  /-- The number of the delivery. -/
  id : Nat
  stage : Stage W

/-- What a task leaves behind. -/
inductive Ending where
  | reported (processed acked : Bool)
  /-- The acknowledgment broke off. -/
  | died
  deriving DecidableEq, Repr

/-- What a consumer is doing. -/
inductive Consumer.Phase where
  | connecting
  /-- Pauses before it connects again. -/
  | pausing (due : Nat)
  /-- About to read. -/
  | ready
  /-- Reads under some number. -/
  | reading (id : Nat)
  /-- Reads no more, and waits for its tasks. -/
  | joining
  | finished
  | died

/-- A consumer of a port. -/
structure Consumer (P : Port) (W : Processor) where
  session : Session P
  worker : W.State
  /-- The pause before connecting again. -/
  reconnectDelay : Duration
  /-- Cancelled to request shutdown. -/
  shutdown : Scope
  phase : Consumer.Phase
  /-- The tasks that are running, in the order in which they began. -/
  tasks : List (Task W)
  /-- What ended tasks left behind, as long as it is not counted. -/
  endings : List Ending
  report : Report

/-- Counts what a task left behind. -/
def Report.tally (report : Report) : Ending → Report
  | .reported processed acked =>
      let report := if processed then { report with succeeded := report.succeeded + 1 }
        else { report with failed := report.failed + 1 }
      if acked then report else { report with ackErrors := report.ackErrors + 1 }
  | .died => { report with failed := report.failed + 1 }

namespace Consumer

variable {P : Port} {W : Processor}

/-- How long a consumer usually pauses before it connects again. -/
def usualDelay : Duration := .ofMillis 100

/-- A consumer that is about to connect. -/
def new (session : Session P) (worker : W.State) (reconnectDelay : Duration) :
    Consumer P W :=
  let (shutdown, session) := session.scope false
  ⟨session, worker, reconnectDelay, shutdown, .connecting, [], [], .empty⟩

/-- Requests shutdown. -/
def requestShutdown (c : Consumer P W) : Consumer P W :=
  { c with session := c.session.cancel c.shutdown }

/-- Shutdown was requested. -/
def stopping (c : Consumer P W) : Bool := c.session.ambient.scopes.IsCancelled c.shutdown

/-- The loop has come to its end, in one way or the other. -/
def ended (c : Consumer P W) : Bool :=
  match c.phase with
  | .finished | .died => true
  | _ => false

/-- Counts what ended tasks left behind. -/
def tally (c : Consumer P W) : Consumer P W :=
  { c with report := c.endings.foldl Report.tally c.report, endings := [] }

/-- A connect or a read failed: the failure is counted, and the loop pauses. -/
def pause (c : Consumer P W) : Consumer P W :=
  { c with
    report := { c.report with connectionErrors := c.report.connectionErrors + 1 }
    phase := .pausing (c.session.ambient.now + c.reconnectDelay.clockMillis) }

/-- Takes the reply to the read under some number.  A batch goes to a task of its own. -/
def take (c : Consumer P W) (id : Nat) : Reply → Consumer P W
  | .delivered batch =>
      tally { c with
        report := { c.report with deliveries := c.report.deliveries + 1 }
        tasks := c.tasks ++ [⟨id, .spawned batch⟩]
        phase := .ready }
  | .failed .closed => { c with phase := .joining }
  | .failed (.connection _) => c.pause
  | .failed _ =>
      { c with
        report := { c.report with reread := c.report.reread + 1 }
        phase := .ready }
  | .died _ => { c with phase := .died, tasks := [], endings := [] }

/-- A step of the loop; `none` if it is blocked or has ended. -/
def stepMain (choice : Choice) (c : Consumer P W) : Option (Consumer P W) :=
  match c.phase with
  | .connecting =>
      if c.stopping then some { c with phase := .joining }
      else
        let (result, session) := c.session.connect c.shutdown
        let c := { c with session }
        match result with
        | .ok () => some { c with phase := .ready }
        | .error .closed => some { c with phase := .joining }
        | .error _ => some c.pause
  | .pausing due =>
      (choice.waited c.stopping (due ≤ c.session.ambient.now)).map fun cancelled =>
        { c with phase := if cancelled then .joining else .connecting }
  | .ready =>
      if c.stopping then some { c with phase := .joining }
      else
        let id := c.session.next
        let (reply, session) := c.session.startRead choice c.shutdown
        let c := { c with session, phase := .reading id }
        match reply with
        | none => some c
        | some reply => some (c.take id reply)
  | .reading id =>
      (c.session.stepRead choice id).map fun (reply, session) =>
        let c := { c with session }
        match reply with
        | none => c
        | some reply => c.take id reply
  | .joining =>
      if !c.endings.isEmpty then some c.tally
      else if c.tasks.isEmpty then
        let (scope, session) := c.session.scope false
        let (_, session) := session.close scope
        some { c with session, phase := .finished }
      else none
  | .finished => none
  | .died => none

/-- The outcome that is reported when processing broke off. -/
def brokeOff : Outcome := .failed (.whole "the processor broke off")

/-- What a task leaves behind after its report. -/
def ending (outcome : Outcome) : Settlement → Ending
  | .accepted => .reported outcome.isProcessed true
  | .rejected _ => .reported outcome.isProcessed false
  | .died => .died

/-- A step of the task for some delivery: it begins to work, or it ends and reports.
`none` if it is blocked or has ended. -/
def stepTask (c : Consumer P W) (id : Nat) : Option (Consumer P W) := do
  let task ← c.tasks.find? (·.id = id)
  match task.stage with
  | .spawned batch =>
      let now := c.session.ambient.now
      let (job, span, worker) := W.start now batch c.worker
      let stage := .working job (now + span.clockMillis)
      return { c with
        worker, tasks := c.tasks.map fun t => if t.id = id then ⟨id, stage⟩ else t }
  | .working job due =>
      if c.session.ambient.now < due then none
      else
        let (outcome?, mint, worker) := W.finish job c.session.ambient.mint c.worker
        let outcome := outcome?.getD brokeOff
        let session := { c.session with ambient := { c.session.ambient with mint } }
        let (settlement, session) ← session.report id outcome
        return { c with
          session, worker
          tasks := c.tasks.filter (·.id ≠ id)
          endings := c.endings ++ [ending outcome settlement] }

end Consumer

end Redelivery
