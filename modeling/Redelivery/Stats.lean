import Redelivery.Timestamp
import Redelivery.Json.Record
import Redelivery.Json.Value

/-!
# Diagnostics

Redelivery never gives up, so how much is waiting and how often it has failed is what
shows that something downstream keeps failing.

Main definitions:

* `Stats`: a look at a redelivery layer.
* `Stats.parse`, `Stats.toJson`: its written form.
-/

namespace Redelivery

/-- A look at a redelivery layer. -/
structure Stats where
  /-- Entries waiting for redelivery. -/
  queued : Nat
  /-- Batches read from the source and not yet acknowledged. -/
  inFlight : Int
  /-- The source has ended and the layer is draining. -/
  sourceClosed : Bool
  /-- The largest number of redeliveries of a waiting entry. -/
  maxAttempts : UInt32
  /-- The earliest failure of a waiting entry. -/
  oldestFailure : Option Timestamp
  deriving DecidableEq

namespace Stats

/-- Nothing has happened yet. -/
def empty : Stats := ⟨0, 0, false, 0, none⟩

/-- What a document says about a layer. -/
structure Draft where
  queued : Option Nat := none
  inFlight : Option Int := none
  sourceClosed : Option Bool := none
  maxAttempts : Option UInt32 := none
  oldestFailure : Option (Option Timestamp) := none

/-- The stats of a draft. -/
def ofDraft (draft : Draft) : Stats where
  queued := draft.queued.getD 0
  inFlight := draft.inFlight.getD 0
  sourceClosed := draft.sourceClosed.getD false
  maxAttempts := draft.maxAttempts.getD 0
  oldestFailure := draft.oldestFailure.getD none

/-- What messages call a timestamp. -/
def timestampName : String := "an RFC 3339 formatted date and time string"

/-- Reads a timestamp. -/
def readTimestamp : Json.Reader Timestamp :=
  Json.readString timestampName fun text => (Timestamp.parse text).mapError (·.message)

def queuedField : Json.Field Draft where
  name := "queued"
  required := true
  present draft := draft.queued.isSome
  read draft s := (Json.readUInt64 "usize" s).map fun (n, s) =>
    ({ draft with queued := some n.toNat }, s)

def inFlightField : Json.Field Draft where
  name := "in_flight"
  required := true
  present draft := draft.inFlight.isSome
  read draft s := (Json.readInt64 s).map fun (i, s) => ({ draft with inFlight := some i }, s)

def sourceClosedField : Json.Field Draft where
  name := "source_closed"
  required := true
  present draft := draft.sourceClosed.isSome
  read draft s := (Json.readBool s).map fun (b, s) => ({ draft with sourceClosed := some b }, s)

def maxAttemptsField : Json.Field Draft where
  name := "max_attempts"
  required := true
  present draft := draft.maxAttempts.isSome
  read draft s := (Json.readUInt32 s).map fun (n, s) => ({ draft with maxAttempts := some n }, s)

def oldestFailureField : Json.Field Draft where
  name := "oldest_failure"
  required := false
  present draft := draft.oldestFailure.isSome
  read draft s := (Json.readOption readTimestamp s).map fun (t, s) =>
    ({ draft with oldestFailure := some t }, s)

/-- How stats are read. -/
def record : Json.Record Draft where
  name := "struct PreserverStats"
  fields :=
    [queuedField, inFlightField, sourceClosedField, maxAttemptsField, oldestFailureField]
  empty := {}

/-- Reads a whole document. -/
def parse (text : String) : Except Json.Fault Stats :=
  (Json.parse record.read text).map ofDraft

/-- The written form; a failure that never happened is left out. -/
def toJson (stats : Stats) : Json.Value :=
  .object <| [
    ("queued", .integer stats.queued),
    ("in_flight", .integer stats.inFlight),
    ("source_closed", .boolean stats.sourceClosed),
    ("max_attempts", .integer stats.maxAttempts.toNat)] ++
    (stats.oldestFailure.map fun t => ("oldest_failure", .string t.write)).toList

end Stats

end Redelivery
