import Redelivery.Proofs.Session.Recorded
import Redelivery.Proofs.Source.Memory

/-!
# What a source in memory hands out

Any number of reads may be in progress at a source in memory, and each may be cancelled at
any time.  Meanwhile its owner pushes batches, closes the input, makes connects fail; others
connect and close.  However all of that is interleaved, every batch is handed out at most
once and in the order of the pushes, and what is written down about a batch is what was
reported on it.

Main definitions:

* `Memory.Stocked`: a session of a source with all that was pushed.
* `Memory.Hands`: what a turn of a read hands out, and what it leaves.
* `Memory.Adds`: what a step adds to the journal.
* `Memory.Kept`: what is known of a source and of its journal.
* `Memory.HandsOver`: what is handed out, and what is written down.

Main results:

* Theorem `Memory.Steps.hands`: a step of a read hands out the first batch, or nothing.
* Theorems `Memory.Kept.move`, `Memory.Kept.deed`: every step keeps what is known.
* Theorem `Memory.hands_over`: batches are handed out in order, in any session.
-/

namespace Redelivery

/-- The port was closed. -/
def Exchange.closes {ρ : Type} : Exchange ρ → Bool
  | .closed _ _ => true
  | _ => false

/-- What is written down about a turn of a read: what is handed out, no report, and no
closing. -/
theorem Port.exchanges_of_turn {P : Port} {ρ : Type} (point : P.Point)
    (progress : Progress P.Read ρ) (number : Nat) :
    (point.exchanges ++ progress.exchanges number : Journal ρ).issued = progress.issued ∧
      (point.exchanges ++ progress.exchanges number : Journal ρ).reports = [] ∧
      ∀ exchange ∈ (point.exchanges ++ progress.exchanges number : Journal ρ),
        exchange.closes = false := by
  refine ⟨by simp, by simp, fun exchange hmem => ?_⟩
  rcases List.mem_append.1 hmem with hmem | hmem
  · cases point with
    | outside caller => exact List.mem_singleton.1 hmem ▸ rfl
    | inside read => cases hmem
  · cases progress with
    | going read => cases hmem
    | ended answer => exact List.mem_singleton.1 hmem ▸ rfl

namespace Memory

/-! ## Sessions of a source -/

/-- Anybody may read or connect at any time; the source does not change by itself. -/
def visitors : Discipline port.recorded where
  enters _ _ := True
  changes _ := False

/-- The source itself. -/
abbrev memory (s : Session port.recorded) : Memory := s.state.state

/-- The recorded source after a deed of its owner; nothing is written down. -/
def Deed.done (deed : Deed) (s : Recorded port) : Recorded port :=
  ⟨s.journal, deed.apply s.state⟩

/-- What a deed adds to a source. -/
def Deed.pushed (m : Memory) : Deed → List (Nat × Batch)
  | .push batch => [(m.next, batch)]
  | _ => []

/-- A session of a source, with all the batches that it held in the beginning or that were
pushed, by their numbers, from the first to the last. -/
inductive Stocked (source : Memory) (a : Ambient) :
    List (Nat × Batch) → Session port.recorded → Prop
  | begins : Stocked source a source.batches (.new a ⟨[], source⟩)
  | step {pushed : List (Nat × Batch)} {s s' : Session port.recorded} :
      Stocked source a pushed s → Session.Step visitors s s' → Stocked source a pushed s'
  | deed {pushed : List (Nat × Batch)} {s : Session port.recorded} (deed : Deed) :
      Stocked source a pushed s →
        Stocked source a (pushed ++ deed.pushed (memory s)) (s.change deed.done)

/-! ## One turn -/

/-- What a turn of a read hands out, and what it leaves. -/
inductive Hands (m m' : Memory) : List (Batch × port.Receipt) → Prop
  | nothing (same : m.Same m') (next : m'.next = m.next) (batches : m'.batches = m.batches) :
      Hands m m' []
  | first {number : Nat} {batch : Batch} (opened : m.shutDown = false) (same : m.Same m')
      (next : m'.next = m.next) (head : m.batches = (number, batch) :: m'.batches) :
      Hands m m' [(batch, ⟨number, batch.texts⟩)]

theorem next_notify (m : Memory) : m.notify.next = m.next := by
  unfold notify
  split <;> rfl

/-- A step of a read hands out the first batch, or nothing. -/
theorem Steps.hands {m m' : Memory} {cancelled : Bool} {read : Reading} {going : Going}
    (h : m.Steps cancelled read going m') : Hands m m' going.issued := by
  have hsame := h.same
  cases h with
  | delivers opened head => exact .first opened hsame rfl head
  | passesOn => exact .nothing hsame (next_notify _) (same_notify _).2
  | shut | ends | findsNone | permitted | turnsBack | waits | wakes | leaves =>
      exact .nothing hsame rfl rfl

/-- A turn of a read hands out the first batch, or nothing. -/
theorem hands_of_turn {choice : Choice} {point : port.Point} {a a' : Ambient} {m m' : Memory}
    {going : Progress port.Read port.Receipt}
    (h : port.turn choice point a m = some (going, a', m')) :
    Hands m m' going.issued := by
  cases point with
  | outside caller =>
      rcases Option.some.inj h with ⟨rfl, -, rfl⟩
      exact .nothing ⟨rfl, rfl, rfl, rfl⟩ rfl rfl
  | inside read => exact (steps_of_step h).1.hands

/-! ## What is written down -/

/-- The batches that were handed out, by their numbers. -/
def handed (issued : List (Batch × port.Receipt)) : List (Nat × Batch) :=
  issued.map fun (batch, receipt) => (receipt.batch, batch)

@[simp]
theorem handed_append (issued more : List (Batch × port.Receipt)) :
    handed (issued ++ more) = handed issued ++ handed more :=
  List.map_append

/-- What is to be written down about a report: the number and the texts of the batch that it
is on, and whether it succeeded. -/
def recordOf (issued : List (Batch × port.Receipt)) (report : Nat × Outcome) : Option AckRecord :=
  issued[report.1]?.map fun (batch, receipt) =>
    ⟨receipt.batch, batch.texts, report.2.isProcessed⟩

/-- What was to be written down is so still when more was handed out. -/
theorem recordOf_append {issued : List (Batch × port.Receipt)} {reports : List (Nat × Outcome)}
    {acks : List AckRecord} (h : acks.map some = reports.map (recordOf issued))
    (more : List (Batch × port.Receipt)) :
    acks.map some = reports.map (recordOf (issued ++ more)) := by
  rw [h]
  refine List.map_congr_left fun report hreport => ?_
  have hmem : recordOf issued report ∈ acks.map some := h ▸ List.mem_map_of_mem hreport
  rcases List.mem_map.1 hmem with ⟨ack, -, hack⟩
  rcases Option.map_eq_some_iff.1 hack.symm with ⟨x, hx, -⟩
  rw [recordOf, recordOf, hx, getElem?_append_of_eq_some hx]

/-- What a step adds to the journal, and does to the source. -/
structure Adds (s s' : Recorded port) (more : Journal port.Receipt) : Prop where
  journal : s'.journal = s.journal ++ more
  batches : handed more.issued ++ s'.state.batches = s.state.batches
  next : s'.state.next = s.state.next
  texts : ∀ x ∈ more.issued, x.2.texts = x.1.texts
  acks : s'.state.acks.map some =
    s.state.acks.map some ++ more.reports.map (recordOf s.journal.issued)
  shut : s'.state.shutDown = (s.state.shutDown || more.any Exchange.closes)
  silent : s.state.shutDown = true → more.issued = []
  apart : more.Pairwise fun earlier later => earlier.closes = true → later.issued = []

/-- A turn of a read writes down what is handed out. -/
theorem adds_of_turn {choice : Choice} {point : port.recorded.Point} {a a' : Ambient}
    {s s' : Recorded port} {progress : Progress (Numbered Reading) (Numbered Receipt)}
    (h : port.recorded.turn choice point a s = some (progress, a', s')) :
    ∃ plain number, port.turn choice point.plain a s.state = some (plain, a', s'.state) ∧
      progress = plain.numbered number s.journal.issued.length ∧
      Adds s s' (point.plain.exchanges ++ plain.exchanges number) := by
  rcases Port.recorded_turn h with ⟨plain, hturn, hprogress, hjournal⟩
  refine ⟨plain, _, hturn, hprogress, ?_⟩
  rcases Port.exchanges_of_turn point.plain plain (point.number s.journal) with
    ⟨hissued, hreports, hopen⟩
  have hany : (point.plain.exchanges ++ plain.exchanges (point.number s.journal) :
      Journal port.Receipt).any Exchange.closes = false :=
    List.any_eq_false.2 fun exchange hmem => by simp [hopen exchange hmem]
  have hapart : (point.plain.exchanges ++ plain.exchanges (point.number s.journal) :
      Journal port.Receipt).Pairwise fun earlier later =>
        earlier.closes = true → later.issued = [] :=
    List.pairwise_of_forall_mem_list fun earlier hmem _ _ hcloses =>
      absurd ((hopen earlier hmem).symm.trans hcloses) Bool.false_ne_true
  generalize (point.plain.exchanges ++ plain.exchanges (point.number s.journal) :
      Journal port.Receipt) = more at *
  have hhands := hands_of_turn hturn
  rw [← hissued] at hhands
  generalize hfound : more.issued = found at hhands
  cases hhands with
  | nothing same next batches =>
      exact ⟨hjournal, by simp [hfound, handed, batches], next, by simp [hfound],
        by simp [hreports, same.acks], by simp [hany, same.shutDown], fun _ => hfound, hapart⟩
  | first opened same next head =>
      exact ⟨hjournal, by simp [hfound, handed, head], next, by simp [hfound],
        by simp [hreports, same.acks], by simp [hany, same.shutDown],
        fun hshut => absurd (opened.symm.trans hshut) Bool.false_ne_true, hapart⟩

/-- A report is written down. -/
theorem adds_of_settle {receipt : Numbered Receipt} {outcome : Outcome} {a a' : Ambient}
    {s s' : Recorded port} {settlement : Settlement} {batch : Batch}
    (filed : s.journal.issued[receipt.number]? = some (batch, receipt.value))
    (texts : receipt.value.texts = batch.texts)
    (h : port.recorded.settle receipt outcome a s = (settlement, a', s')) :
    Adds s s' [.reported receipt.number outcome settlement] := by
  rcases Port.recorded_settle h with ⟨hsettle, hjournal⟩
  have hstate : s'.state = { s.state with
      acks := s.state.acks ++ [⟨receipt.value.batch, receipt.value.texts, outcome.isProcessed⟩] } :=
    (congrArg (fun result => result.2.2) hsettle).symm
  have hrecord : recordOf s.journal.issued (receipt.number, outcome) =
      some ⟨receipt.value.batch, receipt.value.texts, outcome.isProcessed⟩ := by
    rw [recordOf, filed, texts]
    rfl
  exact ⟨hjournal, by simp [Exchange.issued, handed, hstate], by simp [hstate],
    by simp [Exchange.issued], by simp [Exchange.reports, hrecord, hstate],
    by simp [Exchange.closes, hstate], fun _ => rfl, List.pairwise_singleton ..⟩

/-- Connecting leaves the batches, and what is written down about them. -/
theorem adds_of_connect {caller : Scope} {a a' : Ambient} {s s' : Recorded port}
    {result : Except ReadError Unit}
    (h : port.recorded.connect caller a s = (result, a', s')) :
    Adds s s' [.connected caller result] := by
  rcases Port.recorded_connect h with ⟨hconnect, hjournal⟩
  rcases connect_eq caller hconnect with ⟨connects, failing, hstate⟩
  exact ⟨hjournal, by simp [Exchange.issued, handed, hstate], by simp [hstate],
    by simp [Exchange.issued], by simp [Exchange.reports, hstate],
    by simp [Exchange.closes, hstate], fun _ => rfl, List.pairwise_singleton ..⟩

/-- Closing leaves the batches, and what is written down about them. -/
theorem adds_of_close {caller : Scope} {a a' : Ambient} {s s' : Recorded port}
    {result : Except ReadError Unit}
    (h : port.recorded.close caller a s = (result, a', s')) :
    Adds s s' [.closed caller result] := by
  rcases Port.recorded_close h with ⟨hclose, hjournal⟩
  have hstate : s'.state = notify { s.state with shutDown := true } :=
    (congrArg (fun result => result.2.2) hclose).symm
  rcases same_notify { s.state with shutDown := true } with ⟨hsame, hbatches⟩
  have hnext := next_notify { s.state with shutDown := true }
  rw [← hstate] at hsame hbatches hnext
  exact ⟨hjournal, by simp [Exchange.issued, handed, hbatches], hnext, by simp [Exchange.issued],
    by simp [Exchange.reports, hsame.acks], by simp [Exchange.closes, hsame.shutDown],
    fun _ => rfl, List.pairwise_singleton ..⟩

/-! ## What every step keeps -/

/-- What is known of a source and of its journal. -/
structure Kept (pushed : List (Nat × Batch)) (s : Recorded port) : Prop where
  order : handed s.journal.issued ++ s.state.batches = pushed
  numbers : pushed.map Prod.fst = List.range s.state.next
  texts : ∀ x ∈ s.journal.issued, x.2.texts = x.1.texts
  acks : s.state.acks.map some = s.journal.reports.map (recordOf s.journal.issued)
  shut : s.state.shutDown = s.journal.any Exchange.closes
  silent : s.journal.Pairwise fun earlier later => earlier.closes = true → later.issued = []

theorem Unused.kept {source : Memory} (h : Unused source) :
    Kept source.batches ⟨[], source⟩ := by
  rcases h.eq with ⟨queued, next, closed, hnumbers, rfl⟩
  exact ⟨rfl, hnumbers, by simp [Journal.issued], rfl, rfl, .nil⟩

/-- What is added to the journal keeps it. -/
theorem Kept.adds {pushed : List (Nat × Batch)} {s s' : Recorded port} (h : Kept pushed s)
    {more : Journal port.Receipt} (adds : Adds s s' more) : Kept pushed s' where
  order := by
    rw [adds.journal, Journal.issued_append, handed_append, List.append_assoc, adds.batches]
    exact h.order
  numbers := by rw [adds.next, h.numbers]
  texts x hx := by
    rw [adds.journal, Journal.issued_append] at hx
    rcases List.mem_append.1 hx with hold | hnew
    · exact h.texts x hold
    · exact adds.texts x hnew
  acks := by
    rw [adds.journal, Journal.issued_append]
    refine recordOf_append ?_ _
    rw [adds.acks, Journal.reports_append, List.map_append, h.acks]
  shut := by rw [adds.journal, List.any_append, adds.shut, h.shut]
  silent := by
    rw [adds.journal]
    refine List.pairwise_append.2 ⟨h.silent, adds.apart, ?_⟩
    intro earlier hearlier later hlater hcloses
    have hshut : s.state.shutDown = true := by
      rw [h.shut]
      exact List.any_eq_true.2 ⟨earlier, hearlier, hcloses⟩
    exact List.flatMap_eq_nil_iff.1 (adds.silent hshut) later hlater

/-- Every move keeps it, if the deliveries are filed. -/
theorem Kept.move {pushed : List (Nat × Batch)} {s s' : Session port.recorded}
    (h : Kept pushed s.state) (filed : s.Filed) (move : s.Move visitors s') :
    Kept pushed s'.state := by
  cases move with
  | turns enters readers turn =>
      rcases adds_of_turn turn with ⟨_, _, -, -, hadds⟩
      exact h.adds hadds
  | @reports delivery outcome settlement before after a state deliveries settles =>
      have hfiled := filed delivery (deliveries ▸ List.mem_append_right _ (.head _))
      exact h.adds (adds_of_settle hfiled (h.texts _ (List.mem_of_getElem? hfiled)) settles)
  | connects enters connects => exact h.adds (adds_of_connect connects)
  | closes closes => exact h.adds (adds_of_close closes)
  | changes own => exact own.elim
  | elapses grows => exact h

/-- What the owner does keeps it: a batch that is pushed is the last. -/
theorem Kept.deed {pushed : List (Nat × Batch)} {s : Recorded port} (h : Kept pushed s)
    (deed : Deed) : Kept (pushed ++ deed.pushed s.state) (deed.done s) := by
  cases deed with
  | push batch =>
      rcases batches_push s.state batch with ⟨hsame, hbatches⟩
      have hnext : (s.state.push batch).next = s.state.next + 1 := next_notify _
      refine ⟨?_, ?_, h.texts, ?_, ?_, h.silent⟩
      · simp only [Deed.done, Deed.apply, Deed.pushed, hbatches, ← h.order, List.append_assoc]
      · simp [Deed.done, Deed.apply, Deed.pushed, h.numbers, hnext, List.range_succ]
      · simpa [Deed.done, Deed.apply, hsame.acks] using h.acks
      · simpa [Deed.done, Deed.apply, hsame.shutDown] using h.shut
  | closeInput =>
      rcases same_closeInput s.state with ⟨hsame, hbatches⟩
      have hnext : s.state.closeInput.next = s.state.next := next_notify _
      refine ⟨?_, ?_, h.texts, ?_, ?_, h.silent⟩
      · simp only [Deed.done, Deed.apply, Deed.pushed, hbatches, h.order, List.append_nil]
      · simp only [Deed.done, Deed.apply, Deed.pushed, hnext, h.numbers, List.append_nil]
      · simpa [Deed.done, Deed.apply, hsame.acks] using h.acks
      · simpa [Deed.done, Deed.apply, hsame.shutDown] using h.shut
  | failConnects n =>
      have hnone : pushed ++ (Deed.failConnects n).pushed s.state = pushed := List.append_nil _
      rw [hnone]
      exact ⟨h.order, h.numbers, h.texts, h.acks, h.shut, h.silent⟩

/-- A batch carries the number under which it was handed out. -/
theorem Kept.batch_eq {pushed : List (Nat × Batch)} {s : Recorded port} (h : Kept pushed s)
    {k : Nat} {x : Batch × port.Receipt} (hx : s.journal.issued[k]? = some x) : x.2.batch = k := by
  have hhanded : (handed s.journal.issued)[k]? = some (x.2.batch, x.1) := by
    simp [handed, hx]
  have hpushed : pushed[k]? = some (x.2.batch, x.1) :=
    h.order ▸ getElem?_append_of_eq_some hhanded _
  have hnumber : (List.range s.state.next)[k]? = some x.2.batch := by
    rw [← h.numbers, List.getElem?_map, hpushed]
    rfl
  rcases List.getElem?_eq_some_iff.1 hnumber with ⟨hk, hvalue⟩
  rw [← hvalue, List.getElem_range]

/-- What is written down is in the order of the reports, by the numbers of the batches. -/
theorem Kept.map_batch_acks {pushed : List (Nat × Batch)} {s : Recorded port}
    (h : Kept pushed s) : s.state.acks.map AckRecord.batch = s.journal.reports.map Prod.fst := by
  refine List.map_injective_iff.2 (fun _ _ => Option.some.inj) ?_
  have hrecords := congrArg (List.map (Option.map AckRecord.batch)) h.acks
  rw [List.map_map, List.map_map] at hrecords
  rw [List.map_map, List.map_map]
  refine hrecords.trans (List.map_congr_left fun report hreport => ?_)
  have hmem : recordOf s.journal.issued report ∈ s.state.acks.map some :=
    h.acks ▸ List.mem_map_of_mem hreport
  rcases List.mem_map.1 hmem with ⟨ack, -, hack⟩
  rcases Option.map_eq_some_iff.1 hack.symm with ⟨x, hx, -⟩
  simp [recordOf, hx, h.batch_eq hx]

/-! ## Sessions -/

section Sessions

variable {source : Memory} {a : Ambient} {pushed : List (Nat × Batch)} {s : Session port.recorded}

theorem visitors_changes (f : Recorded port → Recorded port) (own : visitors.changes f) :
    Recorded.Changes f :=
  False.elim own

theorem distinct_of_stocked (h : Stocked source a pushed s) : s.Distinct := by
  induction h with
  | begins => exact Session.distinct_new _ _
  | step _ hstep ih => exact (hstep.move ih).distinct ih
  | deed deed _ ih => exact ⟨ih.nodup, ih.lt_next⟩

theorem filed_of_stocked (h : Stocked source a pushed s) : s.Filed := by
  induction h with
  | begins => exact fun _ hmem => (List.not_mem_nil hmem).elim
  | step h hstep ih => exact (hstep.move (distinct_of_stocked h)).filed visitors_changes ih
  | deed deed _ ih => exact ih

theorem booked_of_stocked (h : Stocked source a pushed s) : s.Booked := by
  induction h with
  | begins => exact .refl _
  | step h hstep ih => exact (hstep.move (distinct_of_stocked h)).booked visitors_changes ih
  | deed deed _ ih => exact ih

theorem kept_of_stocked (unused : Unused source) (h : Stocked source a pushed s) :
    Kept pushed s.state := by
  induction h with
  | begins => exact unused.kept
  | step h hstep ih => exact ih.move (filed_of_stocked h) (hstep.move (distinct_of_stocked h))
  | deed deed _ ih => exact ih.deed deed

end Sessions

/-! ## What is handed out -/

/-- What a step of a read takes from the source, and what it tells its reader. -/
inductive Takes (s s' : Session port.recorded) : Option Reply → Prop
  | goesOn (batches : (memory s').batches = (memory s).batches)
      (issued : s'.journal.issued = s.journal.issued) : Takes s s' none
  | delivers {number : Nat} {batch : Batch} (opened : s.journal.any Exchange.closes = false)
      (batches : (memory s).batches = (number, batch) :: (memory s').batches)
      (issued : s'.journal.issued = s.journal.issued ++ [(batch, ⟨number, batch.texts⟩)]) :
      Takes s s' (some (.delivered batch))
  | closes (batches : (memory s').batches = (memory s).batches)
      (issued : s'.journal.issued = s.journal.issued)
      (ended : s.journal.any Exchange.closes = true ∨
        (memory s).inputClosed = true ∧ (memory s).batches = []) :
      Takes s s' (some (.failed .closed))
  | givesUp (batches : (memory s').batches = (memory s).batches)
      (issued : s'.journal.issued = s.journal.issued) : Takes s s' (some (.failed .cancelled))

/-- What is handed out by a source, and what is written down.

* What was handed out, and what the source still has, is all that was pushed, in this order and
  under numbers that differ.
* A read takes nothing as it begins.  A step of a read hands out the first batch or takes
  nothing, and it tells of the end only if the source was closed, or is empty and closed for
  input.
* A read that looks into a source that was not closed is handed the first batch, if there is
  one.
* Nothing is handed out after a closing.
* What is written down is the number and the texts of the batch that each report was on, from
  the first report to the last, and no batch is written down twice. -/
structure HandsOver (pushed : List (Nat × Batch)) (s : Session port.recorded) : Prop where
  order : handed s.journal.issued ++ (memory s).batches = pushed
  distinct : (pushed.map Prod.fst).Nodup
  begins : ∀ choice caller, (s.startRead choice caller).1 = none ∧
    (memory (s.startRead choice caller).2).batches = (memory s).batches ∧
      (s.startRead choice caller).2.journal.issued = s.journal.issued
  reads : ∀ choice id reply s', s.stepRead choice id = some (reply, s') → Takes s s' reply
  looks : ∀ reader ∈ s.readers, ∀ scope, reader.read.value = .looking scope →
    s.journal.any Exchange.closes = false → ∀ number batch rest,
      (memory s).batches = (number, batch) :: rest → ∀ choice,
        ∃ s', s.stepRead choice reader.id = some (some (.delivered batch), s')
  silent : s.journal.Pairwise fun earlier later => earlier.closes = true → later.issued = []
  filed : s.Filed
  acks : (memory s).acks.map some = s.journal.reports.map (recordOf s.journal.issued)
  once : ((memory s).acks.map AckRecord.batch).Nodup

/-- A step of a read takes the first batch and hands it out, or takes nothing. -/
theorem takes_of_stepRead {pushed : List (Nat × Batch)} {s s' : Session port.recorded}
    (h : Kept pushed s.state) (hs : s.Distinct) {choice : Choice} {id : Nat}
    {reply : Option Reply} (hstep : s.stepRead choice id = some (reply, s')) :
    Takes s s' reply := by
  rcases Session.stepRead_eq_some hs hstep with
    ⟨before, after, ⟨_, read⟩, progress, a, state, -, hread, rfl, rfl⟩
  have hturn : port.recorded.turn choice (.inside ⟨_, read⟩) s.ambient s.state =
      some (progress, a, state) := hread
  rcases adds_of_turn hturn with ⟨plain, number, hplain, rfl, hadds⟩
  have hbatches := hadds.batches
  have hissued : state.journal.issued = s.journal.issued ++ plain.issued := by
    rw [hadds.journal, Journal.issued_append, (Port.exchanges_of_turn _ _ _).1]
  rw [(Port.exchanges_of_turn _ _ _).1] at hbatches
  rw [Progress.reply_numbered]
  have hsteps := (steps_of_step hplain).1
  generalize state.state = m at hsteps
  cases hsteps with
  | delivers opened head => exact .delivers (h.shut ▸ opened) hbatches.symm hissued
  | shut shutDown =>
      exact .closes hbatches (hissued.trans (List.append_nil _)) (.inl (h.shut ▸ shutDown))
  | ends opened empty closed =>
      exact .closes hbatches (hissued.trans (List.append_nil _)) (.inr ⟨closed, empty⟩)
  | turnsBack | passesOn | leaves =>
      exact .givesUp hbatches (hissued.trans (List.append_nil _))
  | findsNone | permitted | waits | wakes =>
      exact .goesOn hbatches (hissued.trans (List.append_nil _))

/-- A read that looks is handed the first batch. -/
theorem exists_stepRead_of_looking {s : Session port.recorded} (hs : s.Distinct)
    {reader : Reader port.recorded} (hmem : reader ∈ s.readers) {scope : Scope}
    (looking : reader.read.value = .looking scope) (opened : (memory s).shutDown = false)
    {number : Nat} {batch : Batch} {rest : List (Nat × Batch)}
    (head : (memory s).batches = (number, batch) :: rest) (choice : Choice) :
    ∃ s', s.stepRead choice reader.id = some (some (.delivered batch), s') := by
  have hlook : look scope (memory s) =
      (.ended (.delivered batch ⟨number, batch.texts⟩), { memory s with batches := rest }) := by
    simp [look, opened, head]
  have hends : (port.recorded.step choice reader.read s.ambient s.state).map Prod.fst =
      some (.ended (.delivered batch ⟨s.journal.issued.length, ⟨number, batch.texts⟩⟩)) := by
    simp only [port, looking, step, hlook]
    rfl
  rcases Option.map_eq_some_iff.1 hends with ⟨⟨progress, a, state⟩, hstep, rfl⟩
  exact Session.exists_stepRead hs hmem hstep

/-- In any session of a source, batches are handed out in the order of the pushes, each at most
once, and what is reported on them is written down. -/
theorem hands_over {source : Memory} (unused : Unused source) {a : Ambient}
    {pushed : List (Nat × Batch)} {s : Session port.recorded} (h : Stocked source a pushed s) :
    HandsOver pushed s := by
  have hkept := kept_of_stocked unused h
  have hdistinct := distinct_of_stocked h
  refine ⟨hkept.order, ?_, ?_, ?_, ?_, hkept.silent, filed_of_stocked h, hkept.acks, ?_⟩
  · rw [hkept.numbers]
    exact List.nodup_range
  · intro choice caller
    refine ⟨rfl, rfl, ?_⟩
    have hjournal : (s.startRead choice caller).2.journal = s.journal ++ [.began caller] := rfl
    rw [hjournal, Journal.issued_append]
    exact List.append_nil _
  · intro choice id reply s' hstep
    exact takes_of_stepRead hkept hdistinct hstep
  · intro reader hmem scope hlooking hopen number batch rest head choice
    exact exists_stepRead_of_looking hdistinct hmem hlooking (hkept.shut.trans hopen) head choice
  · rw [hkept.map_batch_acks]
    have hbooked : s.numbers.Nodup := (booked_of_stocked h).nodup_iff.2 List.nodup_range
    exact (List.nodup_append.1 hbooked).2.1

/-! ## A batch that is waited for

A read finds nothing.  Before it waits a batch is pushed, and the read finds the permit. -/

namespace Errand

def choice : Choice := ⟨false, fun low _ => low⟩

def batch : Batch := (Mint.empty.batch [[97]]).1

/-- Somebody has a scope, and reads. -/
def reading : Session port.recorded :=
  let s : Session port.recorded := .new (.start .epoch) ⟨[], .empty⟩
  ((s.scope false).2.startRead choice (s.scope false).1).2

/-- The read has found nothing. -/
def pausing : Session port.recorded := reading.goOn choice 0

/-- A batch is pushed. -/
def stocked : Session port.recorded := pausing.change (Deed.push batch).done

/-- The read has found the permit. -/
def permitted : Session port.recorded := stocked.goOn choice 0

/-- The batch is delivered. -/
def delivered : Session port.recorded := permitted.goOn choice 0

/-- The batch was processed. -/
def processed : Session port.recorded := delivered.told 0 .processed

theorem stocked_processed : Stocked .empty (.start .epoch) [(0, batch)] processed := by
  have hreading : Stocked .empty (.start .epoch) [] reading :=
    .step (.step .begins (.scope _ false)) (.startRead choice trivial)
  have hpauses : reading.stepRead choice 0 = some (none, pausing) := rfl
  have hfinds : stocked.stepRead choice 0 = some (none, permitted) := rfl
  have hdelivers : permitted.stepRead choice 0 = some (some (.delivered batch), delivered) := rfl
  have hreports : delivered.report 0 .processed = some (.accepted, processed) := rfl
  have hstocked : Stocked .empty (.start .epoch) [(0, batch)] stocked :=
    .deed (.push batch) (hreading.step (.stepRead hpauses))
  exact ((hstocked.step (.stepRead hfinds)).step (.stepRead hdelivers)).step (.report hreports)

end Errand

/-- The batch is handed out, and written down as processed. -/
theorem hands_over_errand : HandsOver [(0, Errand.batch)] Errand.processed ∧
    (memory Errand.processed).acks = [⟨0, ["a"], true⟩] :=
  ⟨hands_over .empty Errand.stocked_processed, by decide +kernel⟩

end Memory

end Redelivery
