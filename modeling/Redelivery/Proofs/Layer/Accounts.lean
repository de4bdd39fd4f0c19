import Mathlib.Data.Multiset.AddSub
import Redelivery.Proofs.Layer.Turn
import Redelivery.Proofs.Port.Recorded

/-!
# Accounts of a layer

What a layer does to the batches that it was given can be told without its phases: an
account holds the entries that are somewhere on their way, what was received from the
port inside and reported to it, and what was handed out and reported on.  `Accounts.Step`
lists the few things that can happen to an account, and every operation of a layer does
one of them.

Main definitions:

* `Entry.number`: the number of the batch that an entry is for.
* `Held.Delivers`: what is handed out with a receipt.
* `Accounts`, `Accounts.Step`: an account, and what can happen to it.
* `Layer.accounts`: the account of a layer and its journals.

Main results:

* Theorems `Layer.Turn.accounts_step`, `Layer.settle_accounts_step`,
  `Layer.connect_accounts`, `Layer.close_accounts`: what the operations do to it.
-/

namespace Redelivery

/-- The number of the batch that an entry is for. -/
def Entry.number {ρ : Type} (entry : Entry (Numbered ρ)) : Nat := entry.receipt.number

@[simp]
theorem Entry.number_fresh {ρ : Type} (batch : Batch) (receipt : Numbered ρ) (policy : Policy) :
    (Entry.fresh batch receipt policy).number = receipt.number :=
  rfl

/-- A receipt delivers a single part as it is, and other batches as copies that its group
has tagged. -/
inductive Held.Delivers {ρ : Type} : Held ρ → Batch → Prop
  | single {entry : Entry ρ} (length : entry.batch.length = 1) : Delivers ⟨entry, none⟩ entry.batch
  | several {entry : Entry ρ} {group : Group} (length : entry.batch.length ≠ 1)
      (size : group.size = entry.batch.length) :
      Delivers ⟨entry, some group⟩ (group.tag entry.batch)

/-- As many parts are delivered as the entry has. -/
theorem Held.Delivers.length_eq {ρ : Type} {held : Held ρ} {batch : Batch}
    (h : held.Delivers batch) : batch.length = held.entry.batch.length := by
  cases h with
  | single => rfl
  | several => simp

/-- A list with one more entry at its end has one more entry. -/
theorem coe_append_singleton {α : Type} (l : List α) (x : α) :
    ((l ++ [x] : List α) : Multiset α) = x ::ₘ l :=
  Multiset.coe_eq_coe.2 (List.perm_append_singleton x l)

/-- What became of the batches of a layer whose port inside has receipts of type `ρ`. -/
structure Accounts (ρ : Type) where
  /-- The entries that are delivered, in the backlog, or taken from it by a read. -/
  live : Multiset (Entry (Numbered ρ))
  /-- The layer's own count of what is pending. -/
  pending : Int
  /-- What the port inside has handed out. -/
  received : List (Batch × ρ)
  /-- What was reported to the port inside. -/
  settled : List (Nat × Outcome)
  /-- What the layer has handed out. -/
  handed : List (Batch × Held (Numbered ρ))
  /-- What was reported to the layer. -/
  reported : List (Nat × Outcome)
  /-- The reads that broke off. -/
  broken : List Nat

namespace Accounts

variable {ρ : Type}

/-- Nothing has happened. -/
def empty : Accounts ρ := ⟨0, 0, [], [], [], [], []⟩

/-- What can happen to an account. -/
inductive Step (x : Accounts ρ) : Accounts ρ → Prop
  /-- Entries stay, in the same place or another. -/
  | stays : Step x x
  /-- A read breaks off without an entry. -/
  | breaks (read : Nat) : Step x { x with broken := x.broken ++ [read] }
  /-- A read breaks off, and its entry is lost. -/
  | loses {entry : Entry (Numbered ρ)} {rest : Multiset (Entry (Numbered ρ))} (read : Nat)
      (live : x.live = entry ::ₘ rest) :
      Step x { x with live := rest, broken := x.broken ++ [read] }
  /-- An entry is taken from the backlog, and its delay begins. -/
  | paces {entry : Entry (Numbered ρ)} {rest : Multiset (Entry (Numbered ρ))} (backoff : Backoff)
      (live : x.live = entry ::ₘ rest) :
      Step x { x with live := { entry with backoff } ::ₘ rest }
  /-- A batch is received and handed out. -/
  | receives {batch batch' : Batch} {receipt : ρ} {policy : Policy} {held : Held (Numbered ρ)}
      (fresh : held.entry = .fresh batch ⟨x.received.length, receipt⟩ policy)
      (delivers : held.Delivers batch') :
      Step x { x with
        live := held.entry ::ₘ x.live
        pending := x.pending + 1
        received := x.received ++ [(batch, receipt)]
        handed := x.handed ++ [(batch', held)] }
  /-- An entry is handed out again. -/
  | redelivers {entry : Entry (Numbered ρ)} {rest : Multiset (Entry (Numbered ρ))}
      {backoff : Backoff} {batch : Batch} {held : Held (Numbered ρ)}
      (live : x.live = entry ::ₘ rest)
      (again : held.entry = { entry with attempts := entry.attempts + 1, backoff })
      (delivers : held.Delivers batch) :
      Step x { x with live := held.entry ::ₘ rest, handed := x.handed ++ [(batch, held)] }
  /-- A delivery is reported as failed, and its entry waits to be delivered again. -/
  | fails {batch : Batch} {held : Held (Numbered ρ)} {rest : Multiset (Entry (Numbered ρ))}
      {k : Nat} (failure : Failure) (time : Timestamp) (live : x.live = held.entry ::ₘ rest)
      (handed : x.handed[k]? = some (batch, held)) :
      Step x { x with
        live := (held.afterFailure failure).markFailed time ::ₘ rest
        reported := x.reported ++ [(k, .failed failure)] }
  /-- A delivery is reported as processed, and the report is passed on. -/
  | settles {batch : Batch} {held : Held (Numbered ρ)} {rest : Multiset (Entry (Numbered ρ))}
      {k : Nat} (live : x.live = held.entry ::ₘ rest) (handed : x.handed[k]? = some (batch, held)) :
      Step x { x with
        live := rest
        pending := x.pending - 1
        settled := x.settled ++ [(held.entry.number, .processed)]
        reported := x.reported ++ [(k, .processed)] }

/-- What can be reached from nothing. -/
inductive Reachable : Accounts ρ → Prop
  | empty : Reachable empty
  | step {x y : Accounts ρ} : Reachable x → Step x y → Reachable y

end Accounts

/-! ## The accounts of a layer -/

namespace Layer

variable {settings : Settings} {P : Port}

/-- The entry that a read has taken from the backlog. -/
def Reading.entries : Reading P → List (Entry P.Receipt)
  | .pacing _ _ entry _ => [entry]
  | _ => []

/-- The entry that a read has before a turn. -/
def entriesBefore : (port settings P).Point → List (Entry P.Receipt)
  | .outside _ => []
  | .inside read => Reading.entries read

/-- The entry that a read has after a turn, or hands out. -/
def entriesAfter : Going P → List (Entry P.Receipt)
  | .going read => read.entries
  | .ended (.delivered _ held) => [held.entry]
  | .ended _ => []

/-- The journal between a layer and its source. -/
def source (layer : Layer P.recorded) : Journal P.Receipt :=
  Recorded.journal (P := P) layer.inner

/-- The accounts of a layer, with the entries that are not in its backlog, and the
journal between the layer and those who use it. -/
def accounts (layer : Layer P.recorded) (elsewhere : Multiset (Entry (Numbered P.Receipt)))
    (journal : Journal (Held (Numbered P.Receipt))) : Accounts P.Receipt where
  live := elsewhere + layer.backlog.entries
  pending := layer.pending
  received := layer.source.issued
  settled := layer.source.reports
  handed := journal.issued
  reported := journal.reports
  broken := journal.broken

/-- The first entry of the backlog is on its way, beside the others. -/
theorem live_of_head {layer : Layer P.recorded} {entry : Entry (Numbered P.Receipt)}
    {rest : List (Entry (Numbered P.Receipt))} (head : layer.backlog.entries = entry :: rest)
    (elsewhere : Multiset (Entry (Numbered P.Receipt)))
    (journal : Journal (Held (Numbered P.Receipt))) :
    (layer.accounts elsewhere journal).live = entry ::ₘ (elsewhere + rest) := by
  rw [accounts, head, ← Multiset.cons_coe, Multiset.add_cons]

theorem HandsOut.delivers {scope : Scope} {entry : Entry P.recorded.Receipt} {a a' : Ambient}
    {batch : Batch} {held : Held P.recorded.Receipt}
    (h : HandsOut scope entry a batch held a') : held.Delivers batch := by
  cases h with
  | single length => exact .single length
  | several length => exact .several length rfl

theorem HandsOut.entry_eq {scope : Scope} {entry : Entry P.Receipt} {a a' : Ambient}
    {batch : Batch} {held : Held P.Receipt} (h : HandsOut scope entry a batch held a') :
    held.entry = entry := by
  cases h with
  | single | several => rfl

/-- What the port inside does in a turn is seen by the layer's accounts. -/
theorem source_turn {choice : Choice} {inside : P.recorded.Point} {a a' : Ambient}
    {layer : Layer P.recorded} {inner : Recorded P}
    {progress : Progress P.recorded.Read P.recorded.Receipt}
    (turn : P.recorded.turn choice inside a layer.inner = some (progress, a', inner)) :
    inner.journal.issued = layer.source.issued ++ progress.issued.map (fun x => (x.1, x.2.value)) ∧
      inner.journal.reports = layer.source.reports ∧
      ∀ x ∈ progress.issued, x.2.number = layer.source.issued.length :=
  Port.recorded_turn_issued turn

/-- A read that asks the port inside has no entry. -/
theorem Asks.entriesBefore_eq {layer : Layer P} {point : (port settings P).Point} {scope : Scope}
    {inside : P.Point} (asks : Asks settings layer point scope inside) :
    entriesBefore point = [] := by
  cases asks with
  | begins | goesOn => rfl

/-- A read that finds the end of the source has no entry, and nothing is received. -/
theorem AtEnd.source_eq {choice : Choice} {a a' : Ambient} {layer : Layer P.recorded}
    {point : (port settings P.recorded).Point} {scope : Scope} {inner : Recorded P}
    (atEnd : AtEnd settings choice a layer point scope a' inner) :
    inner.journal.issued = layer.source.issued ∧ inner.journal.reports = layer.source.reports ∧
      entriesBefore point = [] := by
  cases atEnd with
  | flagged | looked => exact ⟨rfl, rfl, rfl⟩
  | answered asks turn =>
      rcases source_turn turn with ⟨hissued, hreports, -⟩
      exact ⟨by simpa [Progress.issued] using hissued, hreports, asks.entriesBefore_eq⟩

section

attribute [local simp] accounts entriesBefore entriesAfter Reading.entries Progress.issued
  Progress.broken

/-- Whatever a turn of a layer's read does is a step of the layer's accounts. -/
theorem Turn.accounts_step {choice : Choice} {a a' : Ambient} {layer layer' : Layer P.recorded}
    {point : (port settings P.recorded).Point} {progress : Going P.recorded}
    (turn : Turn settings choice a layer point progress a' layer')
    (elsewhere : Multiset (Entry (Numbered P.Receipt)))
    (journal : Journal (Held (Numbered P.Receipt))) (read : Nat) :
    (layer.accounts (entriesBefore point + elsewhere) journal).Step
      (layer'.accounts (entriesAfter progress + elsewhere)
        (journal ++ (point.exchanges ++ progress.exchanges read))) := by
  cases turn with
  | arms empty =>
      have hstep := Accounts.Step.stays (x := layer.accounts elsewhere journal)
      simpa [source, empty] using hstep
  | @redelivers caller entry rest backoff batch held a' head atOnce hands =>
      have hstep := Accounts.Step.redelivers (live_of_head head elsewhere journal) hands.entry_eq
        hands.delivers
      simpa [source] using hstep
  | @breaks caller entry rest reason head late next =>
      have hstep := Accounts.Step.loses read (live_of_head head elsewhere journal)
      simpa [source] using hstep
  | @paces caller entry rest delay backoff head late next positive =>
      have hstep := Accounts.Step.paces backoff (live_of_head head elsewhere journal)
      simpa [source] using hstep
  | @resumes caller scope entry due batch held a' passed hands =>
      have hlive : (layer.accounts (↑[entry] + elsewhere) journal).live =
          entry ::ₘ (elsewhere + layer.backlog.entries) := by
        simp
      have hstep := Accounts.Step.redelivers hlive hands.entry_eq hands.delivers
      simpa [source] using hstep
  | @putsBack caller scope entry due cancelled =>
      have hstep := Accounts.Step.stays (x := layer.accounts (↑[entry] + elsewhere) journal)
      simpa [source, Backlog.putBack, ← Multiset.cons_coe] using hstep
  | @asks point scope inside read a' inner asks turn =>
      rcases source_turn turn with ⟨hissued, hreports, -⟩
      have hstep := Accounts.Step.stays (x := layer.accounts elsewhere journal)
      rw [asks.entriesBefore_eq]
      simpa [source, hissued, hreports] using hstep
  | @receives point scope inside batch batch' receipt held a' a'' inner asks turn hands =>
      rcases source_turn turn with ⟨hissued, hreports, hnumber⟩
      have hfresh : held.entry =
          .fresh batch ⟨layer.source.issued.length, receipt.value⟩ settings.backoff := by
        rw [hands.entry_eq, ← hnumber (batch, receipt) (by simp)]
      have hstep := Accounts.Step.receives (x := layer.accounts elsewhere journal) hfresh
        hands.delivers
      rw [asks.entriesBefore_eq]
      simpa [source, hissued, hreports] using hstep
  | @fails point scope inside error a' inner asks turn opened =>
      rcases source_turn turn with ⟨hissued, hreports, -⟩
      have hstep := Accounts.Step.stays (x := layer.accounts elsewhere journal)
      rw [asks.entriesBefore_eq]
      simpa [source, hissued, hreports] using hstep
  | @dies point scope inside reason a' inner asks turn =>
      rcases source_turn turn with ⟨hissued, hreports, -⟩
      have hstep := Accounts.Step.breaks (x := layer.accounts elsewhere journal) read
      rw [asks.entriesBefore_eq]
      simpa [source, hissued, hreports] using hstep
  | ends atEnd drained =>
      rcases atEnd.source_eq with ⟨hissued, hreports, hentries⟩
      have hstep := Accounts.Step.stays (x := layer.accounts elsewhere journal)
      rw [hentries]
      simpa [source, hissued, hreports] using hstep
  | holds atEnd pending =>
      rcases atEnd.source_eq with ⟨hissued, hreports, hentries⟩
      have hstep := Accounts.Step.stays (x := layer.accounts elsewhere journal)
      rw [hentries]
      simpa [source, hissued, hreports] using hstep
  | interrupted cancelled =>
      have hstep := Accounts.Step.stays (x := layer.accounts elsewhere journal)
      simpa [source] using hstep

end

/-- A report on what a layer handed out is a step of the layer's accounts. -/
theorem settle_accounts_step {layer layer' : Layer P.recorded}
    {journal : Journal (Held (Numbered P.Receipt))} {number : Nat} {batch : Batch}
    {held : Held (Numbered P.Receipt)} (handed : journal.issued[number]? = some (batch, held))
    {outcome : Outcome} {settlement : Settlement} {a a' : Ambient}
    (settles : settle held outcome a layer = (settlement, a', layer'))
    (rest : Multiset (Entry (Numbered P.Receipt))) :
    (layer.accounts (held.entry ::ₘ rest) journal).Step
      (layer'.accounts rest (journal ++ [.reported number outcome settlement])) := by
  have hlive : (layer.accounts (held.entry ::ₘ rest) journal).live =
      held.entry ::ₘ (rest + layer.backlog.entries) := by
    simp [accounts]
  cases outcome with
  | processed =>
      rcases settles with ⟨rfl, rfl, rfl⟩
      have hstep := Accounts.Step.settles hlive handed
      simpa [accounts, source, Exchange.issued, Exchange.reports, Exchange.broken,
        Entry.number] using hstep
  | failed failure =>
      rcases settles with ⟨rfl, rfl, rfl⟩
      have hstep := Accounts.Step.fails failure a.wall hlive handed
      simpa [accounts, source, Exchange.issued, Exchange.reports, Exchange.broken,
        Backlog.append, coe_append_singleton, ← Multiset.cons_coe] using hstep

/-- Connecting a layer leaves its accounts as they are. -/
theorem connect_accounts {layer layer' : Layer P.recorded} {caller : Scope} {a a' : Ambient}
    {result : Except ReadError Unit} (connects : connect caller a layer = (result, a', layer'))
    (elsewhere : Multiset (Entry (Numbered P.Receipt)))
    (journal : Journal (Held (Numbered P.Receipt))) :
    layer'.accounts elsewhere (journal ++ [.connected caller result]) =
      layer.accounts elsewhere journal := by
  rcases connect_cases caller a layer with ⟨found, a'', inner, hinner, hcases⟩
  rcases Port.recorded_connect hinner with ⟨-, hjournal⟩
  rcases hcases with ⟨-, -, heq⟩ | ⟨-, heq⟩
  · rcases Prod.mk.inj (heq.symm.trans connects) with ⟨rfl, rfl, rfl⟩
    simp [accounts, source, hjournal, Exchange.issued, Exchange.reports, Exchange.broken]
  · rcases Prod.mk.inj (heq.symm.trans connects) with ⟨rfl, rfl, rfl⟩
    simp [accounts, source, hjournal, Exchange.issued, Exchange.reports, Exchange.broken]

/-- Closing a layer leaves its accounts as they are. -/
theorem close_accounts {layer layer' : Layer P.recorded} {caller : Scope} {a a' : Ambient}
    {result : Except ReadError Unit} (closes : close caller a layer = (result, a', layer'))
    (elsewhere : Multiset (Entry (Numbered P.Receipt)))
    (journal : Journal (Held (Numbered P.Receipt))) :
    layer'.accounts elsewhere (journal ++ [.closed caller result]) =
      layer.accounts elsewhere journal := by
  rcases closes with ⟨rfl, rfl, rfl⟩
  simp [accounts, source, Exchange.issued, Exchange.reports, Exchange.broken]

end Layer

end Redelivery
