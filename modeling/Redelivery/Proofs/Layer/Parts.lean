import Mathlib.Data.Multiset.Bind
import Redelivery.Proofs.Layer.Conservation
import Redelivery.Proofs.Layer.Narrowing

/-!
# Which parts are on their way

Copies of a part share its content, and contents that were made separately differ in their
serial numbers.  So the parts of the entries that are on their way can be told by the serial
numbers of their contents.  A batch that is received adds its parts, and only a report takes
parts away: all of those of its entry, less those that its outcome leaves to deliver again.

Main definitions:

* `Batch.serials`: the contents of a batch, by their serial numbers.
* `Held.left`: what an outcome leaves of a delivery.
* `Accounts.parts`, `Accounts.receivedParts`: the parts that are on their way, and all that
  were received.
* `Accounts.Weighs`: what a step does to them.

Main results:

* Theorem `Accounts.Step.weighs`: every step is one of these.
* Theorem `Accounts.Reachable.length_settled`: what was reported as processed is settled.
-/

namespace Redelivery

/-- The contents of a batch, by their serial numbers. -/
def Batch.serials (batch : Batch) : Multiset Nat :=
  (batch.map fun part => part.content.serial : List Nat)

namespace Batch

theorem serials_append (batch batch' : Batch) :
    serials (batch ++ batch') = serials batch + serials batch' := by
  simp [serials]

/-- The serial numbers are those of the contents. -/
theorem serials_congr {batch batch' : Batch}
    (h : (batch.map Part.content).Perm (batch'.map Part.content)) :
    serials batch = serials batch' := by
  have hserials := h.map Content.serial
  rw [List.map_map, List.map_map] at hserials
  exact Multiset.coe_eq_coe.2 hserials

theorem card_serials (batch : Batch) : batch.serials.card = batch.length := by
  simp [serials]

theorem serial_mem {batch : Batch} {part : Part} (h : part ∈ batch) :
    part.content.serial ∈ batch.serials :=
  Multiset.mem_coe.2 (List.mem_map_of_mem h)

/-- A serial number stands for the copies of a part. -/
theorem count_serials (batch : Batch) (part : Part) :
    batch.serials.count part.content.serial =
      batch.countP (fun copy => copy.SharesContent part) := by
  rw [serials, Multiset.coe_count, List.count, List.countP_map]
  refine List.countP_congr fun copy _ => ?_
  rw [decide_eq_true_iff]
  exact beq_iff_eq

end Batch

/-- What is delivered has the contents of its entry. -/
theorem Held.Delivers.contents_eq {ρ : Type} {held : Held ρ} {batch : Batch}
    (h : held.Delivers batch) : batch.map Part.content = held.entry.batch.map Part.content := by
  cases h with
  | single => rfl
  | several => exact Group.contents_tag ..

/-- What an outcome leaves of a delivery to deliver again. -/
def Held.left {ρ : Type} (held : Held ρ) : Outcome → Batch
  | .processed => []
  | .failed failure => (held.afterFailure failure).batch

namespace Accounts

variable {ρ : Type} {x y : Accounts ρ}

/-- The parts that are on their way. -/
def parts (x : Accounts ρ) : Multiset Nat := x.live.bind fun entry => entry.batch.serials

/-- The parts that were received. -/
def receivedParts (x : Accounts ρ) : Multiset Nat := Batch.serials (x.received.flatMap Prod.fst)

/-- What a step does to the parts that are on their way. -/
inductive Weighs (x y : Accounts ρ) : Prop
  /-- Nothing is reported, and parts are on their way as they are received. -/
  | aside (reported : y.reported = x.reported)
      (parts : y.broken = x.broken → y.parts + x.receivedParts = x.parts + y.receivedParts)
  /-- A report takes away the parts of its entry, and brings back what it leaves. -/
  | reports {k : Nat} {batch : Batch} {held : Held (Numbered ρ)} {outcome : Outcome}
      (handed : x.handed[k]? = some (batch, held))
      (reported : y.reported = x.reported ++ [(k, outcome)]) (received : y.received = x.received)
      (parts : y.parts + held.entry.batch.serials = x.parts + (held.left outcome).serials)

/-- Every step does one of these to the parts. -/
theorem Step.weighs (h : Step x y) : x.Weighs y := by
  cases h with
  | stays => exact .aside rfl fun _ => rfl
  | breaks read => exact .aside rfl fun hbroken => absurd hbroken (by simp)
  | loses read live => exact .aside rfl fun hbroken => absurd hbroken (by simp)
  | paces backoff live =>
      refine .aside rfl fun _ => ?_
      simp [parts, receivedParts, live]
  | @receives batch batch' receipt policy held fresh delivers =>
      refine .aside rfl fun _ => ?_
      have hbatch : held.entry.batch = batch := by rw [fresh, Entry.fresh]
      simp only [parts, receivedParts, Multiset.cons_bind, hbatch, List.flatMap_append,
        List.flatMap_singleton, Batch.serials_append]
      ac_rfl
  | redelivers live again delivers =>
      refine .aside rfl fun _ => ?_
      simp [parts, receivedParts, live, again]
  | fails failure time live handed =>
      refine .reports handed rfl rfl ?_
      simp only [parts, live, Held.left, Entry.markFailed, Multiset.cons_bind]
      ac_rfl
  | settles live handed =>
      refine .reports handed rfl rfl ?_
      simp [parts, live, Held.left, Batch.serials, add_comm]

/-- What was reported as processed is settled, and nothing else. -/
theorem Step.length_settled (h : Step x y)
    (hx : x.settled.length = x.reported.countP fun report => report.2.isProcessed) :
    y.settled.length = y.reported.countP fun report => report.2.isProcessed := by
  cases h with
  | stays | breaks | loses | paces | receives | redelivers => exact hx
  | fails failure time live handed => simpa [Outcome.isProcessed] using hx
  | settles live handed => simpa [Outcome.isProcessed] using hx

theorem Reachable.length_settled (h : x.Reachable) :
    x.settled.length = x.reported.countP fun report => report.2.isProcessed := by
  induction h with
  | empty => rfl
  | step _ hstep ih => exact hstep.length_settled ih

end Accounts

end Redelivery
