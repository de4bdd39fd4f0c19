import Redelivery.Consumer.Basic

/-!
# A processor that rejects parts by chance

Each part of a batch is rejected on its own, with a given probability.  Chance is a
sequence of draws from the numbers of 64 bits: a part is rejected if its draw is below
the share of those numbers that the probability is.

Main definitions:

* `Flaky`: how many draws were taken, and how many parts passed.
* `Flaky.rejected`: the places of the parts that are rejected.
* `Flaky.processor`: the processor.
-/

namespace Redelivery

/-- The state of a processor that rejects parts by chance. -/
structure Flaky where
  /-- How many draws were taken. -/
  drawn : Nat
  /-- How many parts passed. -/
  passed : Nat
  deriving DecidableEq, Repr

namespace Flaky

/-- Nothing was processed. -/
def new : Flaky := ⟨0, 0⟩

/-- How many of the numbers of 64 bits a probability stands for. -/
def share : Binary64 → Nat
  | .finite false k _ => k * 2 ^ 64 / Binary64.one
  | _ => 0

/-- The places, among so many parts, of those whose draw is below a bound. -/
def rejected (draws : Nat → UInt64) (bound drawn size : Nat) : List Nat :=
  (List.range size).filter fun place => (draws (drawn + place)).toNat < bound

/-- The outcome for a batch with parts rejected at some places. -/
def outcome (batch : Batch) (places : List Nat) : Outcome :=
  if places.isEmpty then .processed
  else
    .failed <| .parts <| places.foldl
      (fun failure place => failure.failed place s!"part {place} rejected")
      (.ofBatch batch "part rejected")

/-- Ends the processing of a batch. -/
def finish (draws : Nat → UInt64) (bound : Nat) (batch : Batch) (flaky : Flaky) :
    Outcome × Flaky :=
  let places := rejected draws bound flaky.drawn batch.length
  (outcome batch places,
    ⟨flaky.drawn + batch.length, flaky.passed + (batch.length - places.length)⟩)

/-- A processor that takes some time for each batch and rejects parts with some
probability. -/
def processor (draws : Nat → UInt64) (probability : Binary64) (span : Duration) :
    Processor where
  State := Flaky
  Job := Batch
  start _ batch flaky := (batch, span, flaky)
  finish batch mint flaky :=
    let (outcome, flaky) := finish draws (share probability) batch flaky
    (some outcome, mint, flaky)

end Flaky

end Redelivery
