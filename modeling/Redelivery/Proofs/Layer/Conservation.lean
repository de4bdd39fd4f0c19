import Mathlib.Data.Multiset.Range
import Redelivery.Proofs.Layer.Watched

/-!
# No batch is lost

Every batch that the source has handed out is in exactly one place: delivered and not
yet reported on, in the backlog, with a read whose delay is not over, or settled.  It
leaves the first three only as success is reported, once, to the source.

A read that breaks off may take an entry with it, and nothing else is ever lost.

Main definitions:

* `Accounts.numbers`, `Accounts.Conserved`: what every step keeps.
* `Watch.Accounted`: every batch is in one place.

Main results:

* Theorem `Accounts.Reachable.conserved`: accounts are conserved.
* Theorem `Watch.accounted`: no batch is lost, in any session.
-/

namespace Redelivery

/-- An entry keeps its receipt when its delivery fails. -/
@[simp]
theorem Held.receipt_afterFailure {ρ : Type} (held : Held ρ) (failure : Failure) :
    (held.afterFailure failure).receipt = held.entry.receipt := by
  unfold Held.afterFailure
  cases held.group <;> rfl

@[simp]
theorem Entry.receipt_markFailed {ρ : Type} (entry : Entry ρ) (time : Timestamp) :
    (entry.markFailed time).receipt = entry.receipt :=
  rfl

namespace Accounts

variable {ρ : Type} {x y : Accounts ρ}

/-- The numbers of the batches that are on their way or settled. -/
def numbers (x : Accounts ρ) : Multiset Nat :=
  x.live.map Entry.number + (x.settled.map Prod.fst : List Nat)

/-- Nothing was lost and nothing doubled, and the layer's count is right. -/
structure Conserved (x : Accounts ρ) : Prop where
  numbers_le : x.numbers ≤ Multiset.range x.received.length
  numbers_eq : x.broken = [] → x.numbers = Multiset.range x.received.length
  pending_eq : x.pending + x.settled.length = x.received.length
  processed : ∀ report ∈ x.settled, report.2 = .processed
  genuine : ∀ entry ∈ x.live, ∃ batch, x.received[entry.number]? = some (batch, entry.receipt.value)

theorem conserved_empty : (empty : Accounts ρ).Conserved :=
  ⟨by simp [numbers, empty], fun _ => rfl, rfl, by simp [empty], by simp [empty]⟩

/-- An entry in place of another with the same receipt changes nothing. -/
theorem Conserved.replace (hx : x.Conserved) {entry entry' : Entry (Numbered ρ)}
    {rest : Multiset (Entry (Numbered ρ))} (live : x.live = entry ::ₘ rest)
    (receipt : entry'.receipt = entry.receipt) (live' : y.live = entry' ::ₘ rest)
    (pending : y.pending = x.pending) (received : y.received = x.received)
    (settled : y.settled = x.settled) (broken : y.broken = x.broken) : y.Conserved := by
  have hnumber : entry'.number = entry.number := by
    simp [Entry.number, receipt]
  have hnumbers : y.numbers = x.numbers := by
    simp [numbers, live, live', settled, hnumber]
  refine ⟨?_, ?_, ?_, ?_, ?_⟩
  · rw [hnumbers, received]
    exact hx.numbers_le
  · rw [hnumbers, received, broken]
    exact hx.numbers_eq
  · rw [pending, settled, received]
    exact hx.pending_eq
  · rw [settled]
    exact hx.processed
  · intro other hother
    rw [live', Multiset.mem_cons] at hother
    rw [received]
    rcases hother with rfl | hother
    · have hentry := hx.genuine entry (by simp [live])
      rw [hnumber, receipt]
      exact hentry
    · exact hx.genuine other (by simp [live, hother])

/-- Every step conserves. -/
theorem Step.conserved (h : Step x y) (hx : x.Conserved) : y.Conserved := by
  cases h with
  | stays => exact hx
  | breaks read => exact ⟨hx.numbers_le, by simp, hx.pending_eq, hx.processed, hx.genuine⟩
  | @loses entry rest read live =>
      refine ⟨?_, by simp, hx.pending_eq, hx.processed, ?_⟩
      · have hle := hx.numbers_le
        simp only [numbers, live, Multiset.map_cons, Multiset.cons_add] at hle
        exact (Multiset.le_cons_self _ _).trans hle
      · intro other hother
        exact hx.genuine other (by simp [live, hother])
  | @paces entry rest backoff live =>
      have hreceipt : ({ entry with backoff } : Entry (Numbered ρ)).receipt = entry.receipt := rfl
      exact hx.replace live hreceipt rfl rfl rfl rfl rfl
  | @receives batch batch' receipt policy held fresh delivers =>
      -- The number is the next one, so it is on its way once.
      have hnumber : held.entry.number = x.received.length := by
        rw [fresh, Entry.number_fresh]
      refine ⟨?_, ?_, ?_, hx.processed, ?_⟩
      · simpa [numbers, hnumber, Multiset.range_succ] using hx.numbers_le
      · intro hbroken
        simpa [numbers, hnumber, Multiset.range_succ] using hx.numbers_eq hbroken
      · have hpending := hx.pending_eq
        simp only [List.length_append, List.length_singleton]
        omega
      · intro other hother
        rcases Multiset.mem_cons.1 hother with rfl | hother
        · refine ⟨batch, ?_⟩
          rw [hnumber, fresh]
          exact List.getElem?_concat_length
        · rcases hx.genuine other hother with ⟨batch, hbatch⟩
          exact ⟨batch, getElem?_append_of_eq_some hbatch _⟩
  | @redelivers entry rest backoff batch held live again delivers =>
      exact hx.replace live (by rw [again]) rfl rfl rfl rfl rfl
  | fails failure time live handed => exact hx.replace live (by simp) rfl rfl rfl rfl rfl
  | @settles batch held rest k live handed =>
      have hnumbers : rest.map Entry.number +
          ((x.settled ++ [(held.entry.number, Outcome.processed)]).map Prod.fst : List Nat) =
          x.numbers := by
        rw [numbers, live, List.map_append, List.map_singleton, coe_append_singleton,
          Multiset.add_cons, Multiset.map_cons, Multiset.cons_add]
      refine ⟨?_, ?_, ?_, ?_, ?_⟩
      · exact (le_of_eq hnumbers).trans hx.numbers_le
      · exact fun hbroken => hnumbers.trans (hx.numbers_eq hbroken)
      · have hpending := hx.pending_eq
        simp only [List.length_append, List.length_singleton]
        omega
      · intro report hreport
        rcases List.mem_append.1 hreport with hold | hnew
        · exact hx.processed report hold
        · rw [List.mem_singleton.1 hnew]
      · intro other hother
        exact hx.genuine other (by simp [live, hother])

/-- Whatever is reached is conserved. -/
theorem Reachable.conserved (h : x.Reachable) : x.Conserved := by
  induction h with
  | empty => exact conserved_empty
  | step _ hstep ih => exact hstep.conserved ih

namespace Conserved

/-- No number is on its way twice, or on its way and settled. -/
theorem nodup (hx : x.Conserved) : x.numbers.Nodup :=
  Multiset.nodup_of_le hx.numbers_le (Multiset.nodup_range _)

/-- Every number is that of a batch that was received. -/
theorem lt_length (hx : x.Conserved) {n : Nat} (hn : n ∈ x.numbers) : n < x.received.length :=
  Multiset.mem_range.1 (Multiset.mem_of_le hx.numbers_le hn)

theorem live_lt_length (hx : x.Conserved) {entry : Entry (Numbered ρ)} (h : entry ∈ x.live) :
    entry.number < x.received.length :=
  hx.lt_length (Multiset.mem_add.2 (.inl (Multiset.mem_map_of_mem _ h)))

theorem settled_lt_length (hx : x.Conserved) {report : Nat × Outcome} (h : report ∈ x.settled) :
    report.1 < x.received.length :=
  hx.lt_length (Multiset.mem_add.2 (.inr (List.mem_map_of_mem h)))

/-- Other entries are for other batches. -/
theorem number_ne (hx : x.Conserved) {entry : Entry (Numbered ρ)}
    {rest : Multiset (Entry (Numbered ρ))} (live : x.live = entry ::ₘ rest)
    {other : Entry (Numbered ρ)} (h : other ∈ rest) : other.number ≠ entry.number := by
  have hnodup := hx.nodup
  rw [numbers, live, Multiset.map_cons, Multiset.cons_add, Multiset.nodup_cons] at hnodup
  intro heq
  rw [← heq] at hnodup
  exact hnodup.1 (Multiset.mem_add.2 (.inl (Multiset.mem_map_of_mem _ h)))

end Conserved

end Accounts

namespace Watch

variable {settings : Settings} {P : Port}

/-- Every batch that the source has handed out is in exactly one place, and every entry
anywhere has the receipt of its batch.  What is settled was reported as processed, and
the layer counts what is not settled. -/
structure Accounted (s : Watch settings P) : Prop where
  place : ∀ n < s.source.issued.length,
    (s.held.map Entry.number).count n + (s.queued.map Entry.number).count n +
      (s.paced.map Entry.number).count n + (s.source.reports.map Prod.fst).count n = 1
  genuine : ∀ entry ∈ s.held ++ s.queued ++ s.paced,
    ∃ batch, s.source.issued[entry.number]? = some (batch, entry.receipt.value)
  issued : ∀ report ∈ s.source.reports, report.1 < s.source.issued.length
  processed : ∀ report ∈ s.source.reports, report.2 = .processed
  pending_eq : s.layer.pending = s.held.length + s.queued.length + s.paced.length

/-- How often a number is on its way or settled. -/
theorem count_numbers (s : Watch settings P) (n : Nat) :
    s.accounts.numbers.count n =
      (s.held.map Entry.number).count n + (s.queued.map Entry.number).count n +
        (s.paced.map Entry.number).count n + (s.source.reports.map Prod.fst).count n := by
  simp only [Accounts.numbers, accounts, Layer.accounts, elsewhere, queued, source,
    Multiset.map_add, Multiset.map_coe, Multiset.count_add, Multiset.coe_count]
  omega

/-- In every session, as long as no read has broken off, every batch is accounted for. -/
theorem accounted {source : P.State} {a : Ambient} {s : Watch settings P}
    (h : Session.Reaches (anyone settings P) (start settings source a) s)
    (returned : s.journal.broken = []) : s.Accounted := by
  have hx := (reachable_accounts (fun _ hf => hf) h).conserved
  have hnumbers := hx.numbers_eq returned
  refine ⟨?_, ?_, ?_, hx.processed, ?_⟩
  · intro n hn
    rw [← count_numbers, hnumbers]
    exact Multiset.count_eq_one_of_mem (Multiset.nodup_range _) (Multiset.mem_range.2 hn)
  · intro entry hentry
    apply hx.genuine entry
    simpa [accounts, Layer.accounts, elsewhere, queued, or_assoc, or_comm] using hentry
  · intro report hreport
    exact hx.settled_lt_length hreport
  · have hcard := congrArg Multiset.card hnumbers
    have hpending := hx.pending_eq
    simp only [Accounts.numbers, accounts, Layer.accounts, elsewhere, Multiset.card_add,
      Multiset.card_map, Multiset.coe_card, List.length_map, Multiset.card_range] at hcard hpending
    simp only [queued]
    omega

/-- After a failure, the batch is accounted for. -/
theorem accounted_tour : Tour.failed.journal.broken = [] ∧ Tour.failed.Accounted :=
  ⟨rfl, accounted (anyone_of_alone Tour.reached_failed) rfl⟩

end Watch

end Redelivery
