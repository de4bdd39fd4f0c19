import Redelivery.Consumer.Basic

/-!
# A processor that follows a plan

What such a processor does is laid down beforehand: for every text, what becomes of a
part with that text the first time it is processed, the second time, and so on, and how
long that takes.  Parts on which the plan is silent pass at once.

Main definitions:

* `Verdict`, `Plan.Course`, `Plan`: what becomes of parts, and what was done so far.
* `Plan.lookUp`: the verdicts on a batch.
* `Plan.judge`: the outcome that verdicts come to.
* `Plan.processor`: the plan as a processor.
-/

namespace Redelivery

/-- What becomes of a part. -/
inductive Verdict where
  | passes
  /-- The part fails for a reason. -/
  | fails (reason : String)
  /-- The part fails, and a part that nobody delivered is reported in its place. -/
  | strays
  /-- The whole batch fails. -/
  | failsBatch
  /-- Processing breaks off. -/
  | breaksOff
  deriving DecidableEq, Repr

/-- Why a part fails, if it does. -/
def Verdict.reason? : Verdict → Option String
  | .passes => none
  | .fails reason => some reason
  | .strays | .failsBatch | .breaksOff => some "planned"

namespace Plan

/-- What becomes of the parts with one text, time after time, and how many milliseconds
that takes. -/
structure Course where
  verdicts : List Verdict
  spans : List Nat

/-- A batch as it was begun: when, with what texts, and with what verdicts to come. -/
structure Record where
  time : Nat
  texts : List String
  verdicts : List Verdict
  deriving DecidableEq, Repr

end Plan

/-- A plan and how far it has been followed. -/
structure Plan where
  /-- Milliseconds that every batch takes besides its parts. -/
  overhead : Nat
  courses : List (String × Plan.Course)
  /-- The texts of all parts so far. -/
  seen : List String
  /-- The batches so far. -/
  records : List Plan.Record

namespace Plan

/-- A plan that nobody has followed. -/
def new (overhead : Nat) (courses : List (String × Course)) : Plan :=
  ⟨overhead, courses, [], []⟩

/-- What becomes of the next part with a text, and how long that takes. -/
def next (plan : Plan) (text : String) : Verdict × Nat :=
  match plan.courses.lookup text with
  | none => (.passes, 0)
  | some course =>
      let times := plan.seen.count text
      (course.verdicts.getD times .passes, course.spans.getD times 0)

/-- Looks up parts one after the other: the verdicts on them, and how long they take
together. -/
def lookUp : List String → Plan → List Verdict × Nat × Plan
  | [], plan => ([], 0, plan)
  | text :: rest, plan =>
      let (verdict, span) := plan.next text
      let (verdicts, spans, plan) := lookUp rest { plan with seen := text :: plan.seen }
      (verdict :: verdicts, span + spans, plan)

/-- The batch as it is reported: every stray part makes place for a fresh one. -/
def replaceStrays : Batch → List Verdict → Mint → Batch × Mint
  | part :: batch, verdict :: verdicts, mint =>
      let (part, mint) :=
        if verdict = .strays then mint.part part.content.bytes else (part, mint)
      let (batch, mint) := replaceStrays batch verdicts mint
      (part :: batch, mint)
  | batch, _, mint => (batch, mint)

/-- The failure of all parts that do not pass. -/
def failure (batch : Batch) (verdicts : List Verdict) : PartialFailure :=
  verdicts.zipIdx.foldl
    (fun failure (verdict, index) =>
      match verdict.reason? with
      | none => failure
      | some reason => failure.failed index reason)
    (.ofBatch batch "planned")

/-- The outcome that verdicts come to; `none` if processing breaks off. -/
def judge (batch : Batch) (verdicts : List Verdict) (mint : Mint) : Option Outcome × Mint :=
  if verdicts.contains .breaksOff then (none, mint)
  else if verdicts.contains .failsBatch then (some (.failed (.whole "planned")), mint)
  else if verdicts.all (· = .passes) then (some .processed, mint)
  else
    let (batch, mint) := replaceStrays batch verdicts mint
    (some (.failed (.parts (failure batch verdicts))), mint)

/-- Begins a batch: looks its parts up and writes the batch down. -/
def start (now : Nat) (batch : Batch) (plan : Plan) :
    (Batch × List Verdict) × Duration × Plan :=
  let (verdicts, span, plan) := lookUp batch.texts plan
  let plan := { plan with records := plan.records ++ [⟨now, batch.texts, verdicts⟩] }
  ((batch, verdicts), .ofNanos ((plan.overhead + span) * nanosPerMilli), plan)

/-- The plan as a processor. -/
def processor : Processor where
  State := Plan
  Job := Batch × List Verdict
  start := start
  finish job mint plan :=
    let (outcome, mint) := judge job.1 job.2 mint
    (outcome, mint, plan)

end Plan

end Redelivery
