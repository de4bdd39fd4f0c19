import Redelivery.Part

/-!
# Reports on a delivery

Whoever processes a delivered batch reports what became of it.  A failure concerns
the batch as a whole, or names the parts that failed: a `PartialFailure` holds the
batch as its processor saw it, with an error at each failed place.

Main definitions:

* `PartialFailure`, `PartialFailure.failed`: the parts, and marking one as failed.
* `PartialFailure.walk`: visiting the parts in order until the visitor has enough.
* `Failure`, `Outcome`: what is reported.
-/

namespace Redelivery

/-- The failure of some parts of a batch.  Each part is held with its own error, if it
has one. -/
structure PartialFailure where
  cause : String
  parts : List (Part × Option String)
  deriving DecidableEq, Repr

namespace PartialFailure

/-- No part has failed yet. -/
def ofBatch (batch : Batch) (cause : String) : PartialFailure :=
  ⟨cause, batch.map fun part => (part, none)⟩

/-- Marks the part at `index` as failed, in place of an earlier error there.  An index
outside the batch is ignored. -/
def failed (f : PartialFailure) (index : Nat) (error : String) : PartialFailure :=
  { f with parts := f.parts.modify index fun entry => (entry.1, some error) }

/-- The number of parts that carry an error. -/
def errorCount (f : PartialFailure) : Nat := f.parts.countP (·.2.isSome)

/-- The batch as its processor saw it. -/
def batch (f : PartialFailure) : Batch := f.parts.map Prod.fst

@[simp]
theorem batch_ofBatch (batch : Batch) (cause : String) :
    (ofBatch batch cause).batch = batch := by
  simp [ofBatch, PartialFailure.batch, Function.comp_def]

@[simp]
theorem errorCount_ofBatch (batch : Batch) (cause : String) :
    (ofBatch batch cause).errorCount = 0 := by
  simp [ofBatch, errorCount, List.countP_eq_zero]

/-- Visits entries in order, the first of them at place `index`, until the visitor
answers `done`. -/
def walkFrom {σ : Type} (visit : Nat → Part → Option String → σ → ForInStep σ) :
    Nat → List (Part × Option String) → σ → σ
  | _, [], s => s
  | index, (part, error) :: rest, s =>
      match visit index part error s with
      | .done s => s
      | .yield s => walkFrom visit (index + 1) rest s

/-- Visits every part with its place and its error, if it has one, until the visitor
answers `done`. -/
def walk {σ : Type} (f : PartialFailure)
    (visit : Nat → Part → Option String → σ → ForInStep σ) (start : σ) : σ :=
  walkFrom visit 0 f.parts start

/-- The cause, with the share of the parts that failed. -/
def message (f : PartialFailure) : String :=
  s!"{f.cause} ({f.errorCount} of {f.parts.length} parts failed)"

end PartialFailure

/-- Why a delivered batch was not processed. -/
inductive Failure where
  | whole (reason : String)
  | parts (failure : PartialFailure)
  deriving DecidableEq, Repr

namespace Failure

def message : Failure → String
  | whole reason => "batch processing failed: " ++ reason
  | parts failure => failure.message

/-- What the failure was caused by. -/
def source : Failure → String
  | whole reason => reason
  | parts failure => failure.cause

end Failure

/-- What is reported on a delivered batch. -/
inductive Outcome where
  | processed
  | failed (failure : Failure)
  deriving DecidableEq, Repr

namespace Outcome

def isProcessed : Outcome → Bool
  | processed => true
  | failed _ => false

end Outcome

end Redelivery
