import Redelivery.Backoff
import Redelivery.Part
import Redelivery.Scope
import Redelivery.Timestamp

/-!
# The backlog

Batches whose delivery failed wait here to be delivered again, first come first
served.  The backlog also knows the scope of the read that found it empty and went on
to wait for the source: the next failure cancels that scope, so that the reader comes
back.

Main definitions:

* `Entry`: a batch together with what its source wants to hear about it.
* `Backlog.append`, `Backlog.putBack`, `Backlog.takeOrArm`: the three operations.
* `Backlog.maxAttempts`, `Backlog.oldestFailure`: a look at what is waiting.
-/

namespace Redelivery

/-- A batch that has not been acknowledged, with the receipt it came with. -/
structure Entry (ρ : Type) where
  /-- What is delivered next: the parts that still have to be processed. -/
  batch : Batch
  /-- The source's receipt. -/
  receipt : ρ
  /-- How often the entry has been delivered again. -/
  attempts : UInt32
  backoff : Backoff
  /-- When a delivery of the entry last failed. -/
  lastFailed : Option Timestamp

namespace Entry

variable {ρ : Type}

/-- An entry for a batch just read. -/
def fresh (batch : Batch) (receipt : ρ) (policy : Policy) : Entry ρ :=
  ⟨batch, receipt, 0, policy.start, none⟩

/-- The entry after a delivery failed. -/
def markFailed (entry : Entry ρ) (now : Timestamp) : Entry ρ :=
  { entry with lastFailed := some now }

/-- The entry with what its owner may see of it. -/
def describe (entry : Entry ρ) : String :=
  let failed := match entry.lastFailed with
    | none => "None"
    | some t => "Some(" ++ t.write ++ ")"
  s!"ResendEntry \x7b parts: {entry.batch.length}, attempts: {entry.attempts}, " ++
    "last_failed_at: " ++ failed ++ ", .. \x7d"

end Entry

/-- Entries that wait for redelivery, the next one first. -/
structure Backlog (ρ : Type) where
  entries : List (Entry ρ)
  /-- The scope that the next failure cancels. -/
  interrupt : Scope

namespace Backlog

variable {ρ : Type}

/-- An empty backlog. -/
def empty (interrupt : Scope) : Backlog ρ := ⟨[], interrupt⟩

/-- Appends an entry whose delivery failed, and cancels the armed scope. -/
def append (backlog : Backlog ρ) (entry : Entry ρ) (now : Timestamp) (scopes : Scopes) :
    Backlog ρ × Scopes :=
  ({ backlog with entries := backlog.entries ++ [entry.markFailed now] },
    scopes.cancel backlog.interrupt)

/-- Puts an entry back in front of all others. -/
def putBack (backlog : Backlog ρ) (entry : Entry ρ) : Backlog ρ :=
  { backlog with entries := entry :: backlog.entries }

/-- Takes the first entry, or arms `scope` if there is none. -/
def takeOrArm (backlog : Backlog ρ) (scope : Scope) : Option (Entry ρ) × Backlog ρ :=
  match backlog.entries with
  | entry :: rest => (some entry, { backlog with entries := rest })
  | [] => (none, { backlog with interrupt := scope })

/-- How many entries wait. -/
def size (backlog : Backlog ρ) : Nat := backlog.entries.length

/-- The largest number of redeliveries of a waiting entry, or zero. -/
def maxAttempts (backlog : Backlog ρ) : UInt32 :=
  backlog.entries.foldl (fun most entry => max most entry.attempts) 0

/-- The earliest failure of a waiting entry. -/
def oldestFailure (backlog : Backlog ρ) : Option Timestamp :=
  (backlog.entries.filterMap Entry.lastFailed).min?

end Backlog

end Redelivery
