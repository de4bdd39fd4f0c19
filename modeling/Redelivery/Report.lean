import Redelivery.Json.Record
import Redelivery.Json.Value

/-!
# The report of a consumer

Main definitions:

* `Report`: what a consumer did over its lifetime.
* `Report.parse`, `Report.toJson`: its written form.
-/

namespace Redelivery

/-- What a consumer did over its lifetime.  Its counters have no bound: the words of 64 bits that
hold them are equal to them as long as fewer than `2 ^ 64` things were counted, and no run gets
that far. -/
structure Report where
  /-- Batches that were read. -/
  deliveries : Nat := 0
  /-- Deliveries that were processed. -/
  succeeded : Nat := 0
  /-- Deliveries that failed, or whose processing died. -/
  failed : Nat := 0
  /-- Acknowledgments that were rejected. -/
  ackErrors : Nat := 0
  /-- Connects and reads that failed for another reason than the end of the source. -/
  connectionErrors : Nat := 0
  /-- Reads that were cancelled or timed out, and were issued again. -/
  reread : Nat := 0
  deriving DecidableEq, Repr

namespace Report

/-- Nothing has happened yet. -/
def empty : Report := {}

/-- The counters by name, in the order of the written form. -/
def counters : List (String × (Report → Nat) × (Report → Nat → Report)) := [
  ("deliveries", deliveries, fun r n => { r with deliveries := n }),
  ("succeeded", succeeded, fun r n => { r with succeeded := n }),
  ("failed", failed, fun r n => { r with failed := n }),
  ("ack_errors", ackErrors, fun r n => { r with ackErrors := n }),
  ("connection_errors", connectionErrors, fun r n => { r with connectionErrors := n }),
  ("reread", reread, fun r n => { r with reread := n })]

/-- What a document says about a consumer: the counters, and which of them it gave. -/
structure Draft where
  report : Report := {}
  given : List String := []

/-- The field of a counter. -/
def field (name : String) (set : Report → Nat → Report) : Json.Field Draft where
  name := name
  required := true
  present draft := draft.given.contains name
  read draft s := (Json.readUInt64 "u64" s).map fun (n, s) =>
    (⟨set draft.report n.toNat, name :: draft.given⟩, s)

/-- How a report is read. -/
def record : Json.Record Draft where
  name := "struct ConsumerReport"
  fields := counters.map fun (name, _, set) => field name set
  empty := {}

/-- Reads a whole document. -/
def parse (text : String) : Except Json.Fault Report :=
  (Json.parse record.read text).map (·.report)

/-- The written form. -/
def toJson (report : Report) : Json.Value :=
  .object <| counters.map fun (name, get, _) => (name, .integer (get report))

end Report

end Redelivery
