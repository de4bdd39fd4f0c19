import Redelivery.Proofs.Layer.WakeUp

/-!
# First come, first served

With one reader at a time, batches are delivered again in the order in which their
deliveries failed, and before anything new is read.  A read that gives up its pause puts
its entry back where it was, in front of all that failed in the meantime.

What stands in line is the entry that a read has taken, if any, and then the backlog.
A turn of a read serves the first in line or leaves the line as it is; a failure appends
to it, and nothing else touches it.

Main definitions:

* `Entry.retry`: what a failure leaves to be delivered again.
* `Layer.line`, `Layer.Moves`: who stands in line, and what a turn does to them.
* `Watch.Chronicle`: a session with all that was pushed and all that was retried.
* `Watch.Call`: a read from its beginning on.

Main results:

* Theorem `Layer.Turn.moves`: a turn serves the first in line or leaves the line.
* Theorem `Watch.Chronicle.ordered`: what was pushed was retried, or is in line, in order.
* Theorem `Watch.Call.serves`: a read that finds a backlog serves its first entry.
* Theorem `Watch.first_come`: both, in any session with one reader.
-/

namespace Redelivery

/-- What a failure leaves to be delivered again: all of an entry but its place in the
series of delays. -/
structure Retry (ρ : Type) where
  batch : Batch
  receipt : ρ
  attempts : UInt32
  lastFailed : Option Timestamp

namespace Entry

variable {ρ : Type}

/-- What there is to be delivered again. -/
def retry (entry : Entry ρ) : Retry ρ :=
  ⟨entry.batch, entry.receipt, entry.attempts, entry.lastFailed⟩

/-- What there was to be delivered again before the entry was. -/
def retryBefore (entry : Entry ρ) : Retry ρ := { entry.retry with attempts := entry.attempts - 1 }

@[simp]
theorem retry_backoff (entry : Entry ρ) (backoff : Backoff) :
    ({ entry with backoff } : Entry ρ).retry = entry.retry :=
  rfl

@[simp]
theorem retryBefore_again (entry : Entry ρ) (backoff : Backoff) :
    ({ entry with attempts := entry.attempts + 1, backoff } : Entry ρ).retryBefore =
      entry.retry := by
  simp [retryBefore, retry]

end Entry

/-! ## The line -/

namespace Layer

variable {settings : Settings} {P : Port}

/-- Who stands in line before a turn of a read. -/
def line (point : (port settings P).Point) (layer : Layer P) : List (Entry P.Receipt) :=
  entriesBefore point ++ layer.backlog.entries

/-- Who stands in line after a turn of a read. -/
def lineAfter (progress : Going P) (layer : Layer P) : List (Entry P.Receipt) :=
  match progress with
  | .going read => read.entries ++ layer.backlog.entries
  | .ended _ => layer.backlog.entries

/-- What a turn of a read through a layer does to those in line. -/
inductive Moves (before : Journal P.Receipt) :
    List (Entry (Numbered P.Receipt)) → Going P.recorded → Journal P.Receipt →
      List (Entry (Numbered P.Receipt)) → Prop
  /-- Nobody is served, and what is handed out has never failed. -/
  | keeps {line line' : List (Entry (Numbered P.Receipt))} {progress : Going P.recorded}
      {after : Journal P.Receipt} (same : line'.map Entry.retry = line.map Entry.retry)
      (fresh : ∀ x ∈ progress.issued, x.2.entry.lastFailed = none)
      (broken : after.broken.length = before.broken.length + (progress.broken 0).length) :
      Moves before line progress after line'
  /-- The first in line is handed out. -/
  | serves {entry : Entry (Numbered P.Receipt)} {rest : List (Entry (Numbered P.Receipt))}
      {batch : Batch} {held : Held (Numbered P.Receipt)} (backoff : Backoff)
      (again : held.entry = { entry with attempts := entry.attempts + 1, backoff }) :
      Moves before (entry :: rest) (.ended (.delivered batch held)) before rest
  /-- The read of the first in line breaks off. -/
  | loses {entry : Entry (Numbered P.Receipt)} {rest : List (Entry (Numbered P.Receipt))}
      (reason : String) : Moves before (entry :: rest) (.ended (.died reason)) before rest

/-- The reads of the port inside that break off are counted in the journal. -/
theorem source_turn_broken {choice : Choice} {inside : P.recorded.Point} {a a' : Ambient}
    {layer : Layer P.recorded} {inner : Recorded P}
    {progress : Progress P.recorded.Read P.recorded.Receipt}
    (turn : P.recorded.turn choice inside a layer.inner = some (progress, a', inner)) :
    inner.journal.broken.length = layer.source.broken.length + (progress.broken 0).length := by
  rcases Port.recorded_turn turn with ⟨plain, -, rfl, hjournal⟩
  rw [hjournal]
  cases plain with
  | going read => simp [source, Progress.broken, Progress.numbered]
  | ended answer => cases answer <;> simp [source, Progress.broken, Progress.numbered]

/-- A read that finds the end of the port inside has not broken off there. -/
theorem AtEnd.broken_eq {choice : Choice} {a a' : Ambient} {layer : Layer P.recorded}
    {point : (port settings P.recorded).Point} {scope : Scope} {inner : Recorded P}
    (atEnd : AtEnd settings choice a layer point scope a' inner) :
    inner.journal.broken.length = layer.source.broken.length := by
  cases atEnd with
  | flagged | looked => rfl
  | answered asks turn => exact source_turn_broken turn

/-- Whatever a turn of a read does, the first in line is served, or nobody is. -/
theorem Turn.moves {choice : Choice} {a a' : Ambient} {layer layer' : Layer P.recorded}
    {point : (port settings P.recorded).Point} {progress : Going P.recorded}
    (turn : Turn settings choice a layer point progress a' layer') :
    Moves layer.source (line point layer) progress layer'.source (lineAfter progress layer') := by
  cases turn with
  | arms empty =>
      refine .keeps ?_ ?_ rfl
      · simp [line, lineAfter, entriesBefore, Reading.entries, empty]
      · simp [Progress.issued]
  | @redelivers caller entry rest backoff batch held a' head atOnce hands =>
      have hline : line (.outside caller : (port settings P.recorded).Point) layer =
          entry :: rest := head
      rw [hline]
      exact .serves backoff hands.entry_eq
  | @breaks caller entry rest reason head late next =>
      have hline : line (.outside caller : (port settings P.recorded).Point) layer =
          entry :: rest := head
      rw [hline]
      exact .loses _
  | @paces caller entry rest delay backoff head late next positive =>
      refine .keeps ?_ ?_ rfl
      · simp [line, lineAfter, entriesBefore, Reading.entries, head]
      · simp [Progress.issued]
  | resumes passed hands => exact .serves _ hands.entry_eq
  | putsBack cancelled =>
      refine .keeps ?_ ?_ rfl
      · simp [line, lineAfter, entriesBefore, Reading.entries, Backlog.putBack]
      · simp [Progress.issued]
  | asks asks turn =>
      refine .keeps ?_ ?_ (source_turn_broken turn)
      · simp [line, lineAfter, asks.entriesBefore_eq, Reading.entries]
      · simp [Progress.issued]
  | receives asks turn hands =>
      refine .keeps ?_ ?_ (source_turn_broken turn)
      · simp [line, lineAfter, asks.entriesBefore_eq]
      · simp [Progress.issued, hands.entry_eq, Entry.fresh]
  | fails asks turn opened =>
      refine .keeps ?_ ?_ (source_turn_broken turn)
      · simp [line, lineAfter, asks.entriesBefore_eq]
      · simp [Progress.issued]
  | dies asks turn =>
      refine .keeps ?_ ?_ (source_turn_broken turn)
      · simp [line, lineAfter, asks.entriesBefore_eq]
      · simp [Progress.issued]
  | ends atEnd drained =>
      rcases atEnd.source_eq with ⟨-, -, hentries⟩
      refine .keeps ?_ ?_ atEnd.broken_eq
      · simp [line, lineAfter, hentries]
      · simp [Progress.issued]
  | holds atEnd pending =>
      rcases atEnd.source_eq with ⟨-, -, hentries⟩
      refine .keeps ?_ ?_ atEnd.broken_eq
      · simp [line, lineAfter, hentries, Reading.entries]
      · simp [Progress.issued]
  | interrupted cancelled =>
      refine .keeps ?_ ?_ rfl
      · simp [line, lineAfter, entriesBefore, Reading.entries]
      · simp [Progress.issued]

/-- The entries that a turn hands out, and that have failed before. -/
def retriesOf (progress : Going P) : List (Entry P.Receipt) :=
  (progress.issued.map fun (_, held) => held.entry).filter (·.lastFailed.isSome)

theorem retriesOf_eq_nil {progress : Going P}
    (fresh : ∀ x ∈ progress.issued, x.2.entry.lastFailed = none) : retriesOf progress = [] := by
  rw [retriesOf, List.filter_eq_nil_iff]
  intro entry hentry
  rcases List.mem_map.1 hentry with ⟨x, hx, rfl⟩
  simp [fresh x hx]

theorem retriesOf_delivered (batch : Batch) {held : Held P.Receipt}
    (marked : held.entry.lastFailed.isSome) :
    retriesOf (.ended (.delivered batch held) : Going P) = [held.entry] := by
  simp [retriesOf, Progress.issued, marked]

/-- What was handed out again and who stands in line are, in order, among what was pushed;
a turn keeps it so. -/
theorem Moves.sublist {before after : Journal P.Receipt}
    {line line' : List (Entry (Numbered P.Receipt))} {progress : Going P.recorded}
    (moves : Moves before line progress after line')
    (marked : ∀ entry ∈ line, entry.lastFailed.isSome)
    {pushed : List (Retry (Numbered P.Receipt))} {retried : List (Entry (Numbered P.Receipt))}
    (h : (retried.map Entry.retryBefore ++ line.map Entry.retry).Sublist pushed) :
    ((retried ++ retriesOf progress).map Entry.retryBefore ++
      line'.map Entry.retry).Sublist pushed := by
  cases moves with
  | keeps same fresh broken =>
      rw [retriesOf_eq_nil fresh, same, List.append_nil]
      exact h
  | @serves entry rest batch held backoff again =>
      have hmarked : held.entry.lastFailed.isSome := by
        rw [again]
        exact marked entry List.mem_cons_self
      rw [retriesOf_delivered batch hmarked, List.map_append, List.append_assoc]
      simpa [again] using h
  | @loses entry rest reason =>
      refine .trans (.append (by simp [retriesOf, Progress.issued]) ?_) h
      exact List.sublist_cons_self ..

/-- A turn takes from the line what it hands out again, or what breaks off in the layer. -/
theorem Moves.length_eq {before after : Journal P.Receipt}
    {line line' : List (Entry (Numbered P.Receipt))} {progress : Going P.recorded}
    (moves : Moves before line progress after line')
    (marked : ∀ entry ∈ line, entry.lastFailed.isSome) (read : Nat) :
    (retriesOf progress).length + line'.length + (progress.broken read).length +
      before.broken.length = line.length + after.broken.length := by
  cases moves with
  | keeps same fresh broken =>
      have hread : (progress.broken read).length = (progress.broken 0).length := by
        cases progress with
        | going read => rfl
        | ended answer => cases answer <;> rfl
      have hlength := congrArg List.length same
      simp only [List.length_map] at hlength
      rw [retriesOf_eq_nil fresh, List.length_nil]
      omega
  | @serves entry rest batch held backoff again =>
      have hmarked : held.entry.lastFailed.isSome := by
        rw [again]
        exact marked entry List.mem_cons_self
      rw [retriesOf_delivered batch hmarked]
      simp only [Progress.broken, List.length_cons, List.length_nil]
      omega
  | loses reason =>
      simp [retriesOf, Progress.issued, Progress.broken]

/-- Whoever stands in line after a turn stood there before. -/
theorem Moves.marked {before after : Journal P.Receipt}
    {line line' : List (Entry (Numbered P.Receipt))} {progress : Going P.recorded}
    (moves : Moves before line progress after line')
    (marked : ∀ entry ∈ line, entry.lastFailed.isSome) :
    ∀ entry ∈ line', entry.lastFailed.isSome := by
  cases moves with
  | keeps same fresh broken =>
      intro entry hentry
      have hretry : entry.retry ∈ line.map Entry.retry := same ▸ List.mem_map_of_mem hentry
      rcases List.mem_map.1 hretry with ⟨other, hother, heq⟩
      have hfailed : other.lastFailed = entry.lastFailed := congrArg Retry.lastFailed heq
      exact hfailed ▸ marked other hother
  | serves | loses => exact fun entry hentry => marked entry (List.mem_cons_of_mem _ hentry)

/-- A report of success is passed on, and leaves the backlog. -/
theorem settle_processed {layer layer' : Layer P.recorded} {held : Held (Numbered P.Receipt)}
    {settlement : Settlement} {a a' : Ambient}
    (settles : settle held .processed a layer = (settlement, a', layer')) :
    layer'.backlog = layer.backlog ∧ layer'.pending = layer.pending - 1 ∧
      layer'.inputClosed = layer.inputClosed ∧
      layer'.source = layer.source ++ [.reported held.entry.number .processed settlement] := by
  rcases settles with ⟨rfl, rfl, rfl⟩
  exact ⟨rfl, rfl, rfl, rfl⟩

/-- A failure goes to the end of the backlog, and is not passed on. -/
theorem settle_failed {layer layer' : Layer P.recorded} {held : Held (Numbered P.Receipt)}
    {failure : Failure} {settlement : Settlement} {a a' : Ambient}
    (settles : settle held (.failed failure) a layer = (settlement, a', layer')) :
    layer'.backlog.entries =
        layer.backlog.entries ++ [(held.afterFailure failure).markFailed a.wall] ∧
      layer'.pending = layer.pending ∧ layer'.inputClosed = layer.inputClosed ∧
      layer'.source = layer.source := by
  rcases settles with ⟨rfl, rfl, rfl⟩
  exact ⟨rfl, rfl, rfl, rfl⟩

/-- Closing touches neither the backlog nor what is counted. -/
theorem close_source {layer layer' : Layer P.recorded} {caller : Scope} {a a' : Ambient}
    {result : Except ReadError Unit} (closes : close caller a layer = (result, a', layer')) :
    layer'.backlog = layer.backlog ∧ layer'.pending = layer.pending ∧
      layer'.inputClosed = layer.inputClosed ∧
      layer'.source = layer.source ++ [.closed caller result] := by
  rcases closes with ⟨rfl, rfl, rfl⟩
  exact ⟨rfl, rfl, rfl, rfl⟩

end Layer

/-! ## Sessions -/

namespace Watch

variable {settings : Settings} {P : Port}

/-- What a report leaves to be delivered again. -/
def pushed (s : Watch settings P) : Nat × Outcome → Option (Entry (Numbered P.Receipt))
  | (_, .processed) => none
  | (number, .failed failure) => s.journal.issued[number]?.map fun (_, held) =>
      (held.afterFailure failure).markFailed s.ambient.wall

/-- The entries that the failures reported in a step leave to be delivered again. -/
def pushes (s s' : Watch settings P) : List (Entry (Numbered P.Receipt)) :=
  (s'.journal.reports.drop s.journal.reports.length).filterMap s.pushed

/-- The entries that are handed out in a step, and have failed before. -/
def retries (s s' : Watch settings P) : List (Entry (Numbered P.Receipt)) :=
  ((s'.journal.issued.drop s.journal.issued.length).map fun (_, held) => held.entry).filter
    (·.lastFailed.isSome)

theorem pushes_of_append {s s' : Watch settings P}
    {more : Journal (Held (Numbered P.Receipt))} (h : s'.journal = s.journal ++ more) :
    s.pushes s' = more.reports.filterMap s.pushed := by
  simp [pushes, h]

theorem retries_of_append {s s' : Watch settings P}
    {more : Journal (Held (Numbered P.Receipt))} (h : s'.journal = s.journal ++ more) :
    s.retries s' = (more.issued.map fun (_, held) => held.entry).filter (·.lastFailed.isSome) := by
  simp [retries, h]

/-- A move adds to the journal, and begins a read only where the discipline allows it. -/
theorem journal_move {D : Discipline (Layer.watched settings P)}
    (own : ∀ f, D.changes f → ChangesSource f) {s s' : Watch settings P} (move : s.Move D s') :
    ∃ more, s'.journal = s.journal ++ more ∧ ∀ caller ∈ more.callers, D.enters s caller := by
  cases move with
  | @turns choice point id before after progress a state enters readers turn =>
      rcases Port.recorded_turn turn with ⟨plain, -, -, hjournal⟩
      refine ⟨_, hjournal, ?_⟩
      rw [Journal.callers_append, Progress.callers_exchanges, List.append_nil]
      cases point with
      | outside outer =>
          intro caller hcaller
          obtain rfl : caller = outer := by
            simpa [Port.Point.plain, Port.Point.exchanges, Exchange.callers] using hcaller
          exact (enters caller rfl).1
      | inside read => exact fun caller hcaller => absurd hcaller List.not_mem_nil
  | reports deliveries settles =>
      rcases Port.recorded_settle settles with ⟨-, hjournal⟩
      exact ⟨_, hjournal, by simp [Exchange.callers]⟩
  | connects enters connects =>
      rcases Port.recorded_connect connects with ⟨-, hjournal⟩
      exact ⟨_, hjournal, by simp [Exchange.callers]⟩
  | closes closes =>
      rcases Port.recorded_close closes with ⟨-, hjournal⟩
      exact ⟨_, hjournal, by simp [Exchange.callers]⟩
  | changes hown =>
      rcases own _ hown with ⟨g, rfl⟩
      exact ⟨[], (List.append_nil _).symm, by simp [Journal.callers]⟩
  | elapses grows => exact ⟨[], (List.append_nil _).symm, by simp [Journal.callers]⟩

/-- A session with one reader, with all the entries that failures have pushed, and all
that were handed out again, from the first to the last. -/
inductive Chronicle (source : P.State) (a : Ambient) :
    List (Entry (Numbered P.Receipt)) → List (Entry (Numbered P.Receipt)) →
      Watch settings P → Prop
  | begins : Chronicle source a [] [] (start settings source a)
  | step {pushed retried : List (Entry (Numbered P.Receipt))} {s s' : Watch settings P} :
      Chronicle source a pushed retried s → Session.Step (alone settings P) s s' →
        Chronicle source a (pushed ++ s.pushes s') (retried ++ s.retries s') s'

/-- What is told is a session with one reader. -/
theorem Chronicle.reaches {source : P.State} {a : Ambient}
    {pushed retried : List (Entry (Numbered P.Receipt))} {s : Watch settings P}
    (h : Chronicle source a pushed retried s) :
    Session.Reaches (alone settings P) (start settings source a) s := by
  induction h with
  | begins => exact .start
  | step _ hstep ih => exact ih.step hstep

/-- Every session with one reader can be told. -/
theorem exists_chronicle {source : P.State} {a : Ambient} {s : Watch settings P}
    (h : Session.Reaches (alone settings P) (start settings source a) s) :
    ∃ pushed retried, Chronicle source a pushed retried s := by
  induction h with
  | start => exact ⟨_, _, .begins⟩
  | step _ hstep ih =>
      rcases ih with ⟨pushed, retried, ih⟩
      exact ⟨_, _, ih.step hstep⟩

/-- All deliveries are filed. -/
theorem filed_of_reaches {D : Discipline (Layer.watched settings P)}
    (own : ∀ f, D.changes f → ChangesSource f) {source : P.State} {a : Ambient}
    {s : Watch settings P} (h : Session.Reaches D (start settings source a) s) : s.Filed := by
  refine h.induct (motive := Session.Filed) (Session.distinct_new _ _)
    (by simp [Session.Filed, start, Session.new]) ?_
  intro s s' hs hmove
  exact hmove.filed (fun f hf => (own f hf).unwritten) hs

/-- What a step that is no turn of a read does to the line: failures are appended. -/
structure Aside (s s' : Watch settings P) : Prop where
  readers : s'.readers = s.readers
  next : s'.next = s.next
  interrupt : s'.layer.backlog.interrupt = s.layer.backlog.interrupt
  queued : s'.queued = s.queued ++ s.pushes s'
  callers : s'.journal.callers = s.journal.callers
  issued : s'.journal.issued = s.journal.issued
  broken : s'.journal.broken = s.journal.broken
  sourceBroken : s'.source.broken = s.source.broken
  sourceCallers : s'.source.callers = s.source.callers
  closed : s.readers ≠ [] → s'.layer.inputClosed = s.layer.inputClosed
  pending : s'.layer.pending + s'.source.reports.length =
    s.layer.pending + s.source.reports.length

theorem Aside.retries_eq {s s' : Watch settings P} (aside : s.Aside s') : s.retries s' = [] := by
  simp [retries, aside.issued]

/-- A step in which nothing is handed out or reported on appends nothing. -/
theorem Aside.of_append {s s' : Watch settings P} (readers : s'.readers = s.readers)
    (next : s'.next = s.next) (backlog : s'.layer.backlog = s.layer.backlog)
    {more : Journal (Held (Numbered P.Receipt))} (journal : s'.journal = s.journal ++ more)
    (outside : more.callers = [] ∧ more.issued = [] ∧ more.reports = [] ∧ more.broken = [])
    {inner : Journal P.Receipt} (source : s'.source = s.source ++ inner)
    (inside : inner.callers = [] ∧ inner.reports = [] ∧ inner.broken = [])
    (closed : s.readers ≠ [] → s'.layer.inputClosed = s.layer.inputClosed)
    (pending : s'.layer.pending = s.layer.pending) : s.Aside s' where
  readers := readers
  next := next
  interrupt := congrArg Backlog.interrupt backlog
  queued := by
    have hqueued : s'.queued = s.queued := congrArg Backlog.entries backlog
    simp [pushes_of_append journal, outside, hqueued]
  callers := by simp [journal, outside]
  issued := by simp [journal, outside]
  broken := by simp [journal, outside]
  sourceBroken := by simp [source, inside]
  sourceCallers := by simp [source, inside]
  closed := closed
  pending := by simp [source, inside, pending]

/-- A report appends what it says has failed, and nothing else. -/
theorem aside_report {s s' : Watch settings P} (hfiled : s.Filed)
    {delivery : Delivery (Layer.watched settings P)} (hmem : delivery ∈ s.deliveries)
    {outcome : Outcome} {settlement : Settlement} (readers : s'.readers = s.readers)
    (next : s'.next = s.next)
    (settles : (Layer.watched settings P).settle delivery.receipt outcome s.ambient s.state =
      (settlement, s'.ambient, s'.state)) : s.Aside s' := by
  have hfound := hfiled delivery hmem
  rcases Port.recorded_settle settles with ⟨hsettles, hjournal⟩
  have hinterrupt := Layer.settle_interrupt hsettles
  have hpushes := pushes_of_append hjournal
  have hcallers : s'.journal.callers = s.journal.callers := by
    simp [journal, hjournal, Exchange.callers]
  have hissued : s'.journal.issued = s.journal.issued := by
    simp [journal, hjournal, Exchange.issued]
  have hbroken : s'.journal.broken = s.journal.broken := by
    simp [journal, hjournal, Exchange.broken]
  cases outcome with
  | processed =>
      rcases Layer.settle_processed hsettles with ⟨hbacklog, hpending, hclosed, hsource⟩
      refine ⟨readers, next, hinterrupt, ?_, hcallers, hissued, hbroken, ?_, ?_,
        fun _ => hclosed, ?_⟩
      · simp [hpushes, queued, hbacklog, pushed, Exchange.reports]
      · simp [source, hsource, Exchange.broken]
      · simp [source, hsource, Exchange.callers]
      · have hreports : s'.source.reports.length = s.source.reports.length + 1 := by
          simp [source, hsource, Exchange.reports]
        have hless : s'.layer.pending = s.layer.pending - 1 := hpending
        rw [hreports, hless]
        omega
  | failed failure =>
      rcases Layer.settle_failed hsettles with ⟨hentries, hpending, hclosed, hsource⟩
      refine ⟨readers, next, hinterrupt, ?_, hcallers, hissued, hbroken, ?_, ?_,
        fun _ => hclosed, ?_⟩
      · simp [hpushes, queued, hentries, pushed, hfound, Exchange.reports]
      · rw [source, hsource]
      · rw [source, hsource]
      · rw [source, hsource, hpending]

/-- Connecting appends nothing. -/
theorem aside_connect {s s' : Watch settings P} {caller : Scope} {result : Except ReadError Unit}
    (alone : s.readers = []) (readers : s'.readers = s.readers) (next : s'.next = s.next)
    (connects : (Layer.watched settings P).connect caller s.ambient s.state =
      (result, s'.ambient, s'.state)) : s.Aside s' := by
  rcases Port.recorded_connect connects with ⟨hconnects, hjournal⟩
  rcases Layer.connect_cases caller s.ambient s.layer with ⟨found, b, inner, hinner, hcases⟩
  rcases Port.recorded_connect hinner with ⟨-, hsource⟩
  have hlayer : s'.layer.inner = inner ∧ s'.layer.pending = s.layer.pending := by
    rcases hcases with ⟨-, -, heq⟩ | ⟨-, heq⟩
    · have hlayer : _ = s'.layer := congrArg (fun x => x.2.2) (heq.symm.trans hconnects)
      exact hlayer ▸ ⟨rfl, rfl⟩
    · have hlayer : _ = s'.layer := congrArg (fun x => x.2.2) (heq.symm.trans hconnects)
      exact hlayer ▸ ⟨rfl, rfl⟩
  rcases hlayer with ⟨rfl, hpending⟩
  exact .of_append readers next (Layer.connect_backlog hconnects) hjournal ⟨rfl, rfl, rfl, rfl⟩
    hsource ⟨rfl, rfl, rfl⟩ (fun h => absurd alone h) hpending

/-- Closing appends nothing. -/
theorem aside_close {s s' : Watch settings P} {caller : Scope} {result : Except ReadError Unit}
    (readers : s'.readers = s.readers) (next : s'.next = s.next)
    (closes : (Layer.watched settings P).close caller s.ambient s.state =
      (result, s'.ambient, s'.state)) : s.Aside s' := by
  rcases Port.recorded_close closes with ⟨hcloses, hjournal⟩
  rcases Layer.close_source hcloses with ⟨hbacklog, hpending, hclosed, hsource⟩
  exact .of_append readers next hbacklog hjournal ⟨rfl, rfl, rfl, rfl⟩ hsource ⟨rfl, rfl, rfl⟩
    (fun _ => hclosed) hpending

/-- A change of the source appends nothing. -/
theorem aside_change (s : Watch settings P) (f : P.State → P.State) :
    s.Aside ⟨s.ambient, changeSource f s.state, s.readers, s.deliveries, s.next⟩ :=
  .of_append rfl rfl rfl (List.append_nil _).symm ⟨rfl, rfl, rfl, rfl⟩ (List.append_nil _).symm
    ⟨rfl, rfl, rfl⟩ (fun _ => rfl) rfl

/-- What happens around a session appends nothing. -/
theorem aside_elapse (s : Watch settings P) (a : Ambient) :
    s.Aside ⟨a, s.state, s.readers, s.deliveries, s.next⟩ :=
  .of_append rfl rfl rfl (List.append_nil _).symm ⟨rfl, rfl, rfl, rfl⟩ (List.append_nil _).symm
    ⟨rfl, rfl, rfl⟩ (fun _ => rfl) rfl

/-- In this step the only read takes a turn. -/
structure TakesTurn (s s' : Watch settings P) (choice : Choice)
    (point : (Layer.watched settings P).Point) (id : Nat)
    (progress : Progress (Layer.watched settings P).Read (Layer.watched settings P).Receipt) :
    Prop where
  enters : ∀ caller, point = .outside caller → (alone settings P).enters s caller
  readers : s.readers = point.readers id
  readers' : s'.readers = Reader.after id progress
  next : s'.next = point.next s.next
  turn : (Layer.watched settings P).turn choice point s.ambient s.state =
    some (progress, s'.ambient, s'.state)

/-- A read that begins, with no other in progress, takes a turn. -/
theorem takesTurn_startRead {s s' : Watch settings P} {choice : Choice} {caller : Scope}
    (enters : (alone settings P).enters s caller) {reply : Option Reply}
    (h : s.startRead choice caller = (reply, s')) :
    ∃ progress, reply = progress.reply ∧
      s.TakesTurn s' choice (.outside caller) s.next progress := by
  rcases hstart : (Layer.watched settings P).start choice caller s.ambient s.state with
    ⟨progress, a, state⟩
  rw [Session.startRead_eq hstart] at h
  rcases Prod.mk.inj h with ⟨rfl, rfl⟩
  refine ⟨progress, rfl, ?_, enters.1, ?_, rfl, congrArg some hstart⟩
  · rintro outer ⟨⟩
    exact enters
  · simp [enters.1]

/-- The only read takes a turn as it goes on. -/
theorem takesTurn_stepRead {s s' : Watch settings P} (hs : s.Distinct) {choice : Choice}
    {reader : Reader (Layer.watched settings P)} (hone : s.readers = [reader])
    {reply : Option Reply} (h : s.stepRead choice reader.id = some (reply, s')) :
    ∃ progress, reply = progress.reply ∧
      s.TakesTurn s' choice (.inside reader.read) reader.id progress := by
  rcases Session.stepRead_of_only hs hone h with ⟨progress, a, state, hstep, rfl, rfl⟩
  refine ⟨progress, rfl, ?_, hone, rfl, rfl, hstep⟩
  rintro outer ⟨⟩

/-- Before a turn of the only read, those in line are the entry that it has taken and the
backlog. -/
theorem TakesTurn.line_eq {s s' : Watch settings P} {choice : Choice}
    {point : (Layer.watched settings P).Point} {id : Nat}
    {progress : Progress (Layer.watched settings P).Read (Layer.watched settings P).Receipt}
    (takes : s.TakesTurn s' choice point id progress) :
    s.paced ++ s.queued = Layer.line point.plain s.layer := by
  have hreaders := takes.readers
  cases point with
  | outside caller =>
      have hnone : s.readers = [] := hreaders
      simp [paced, hnone, Layer.line, Layer.entriesBefore, Port.Point.plain, queued]
  | inside read =>
      have hone : s.readers = [⟨id, read⟩] := hreaders
      simp [paced, hone, Layer.line, Layer.entriesBefore, Port.Point.plain, queued, pacedBy]

/-- And so they are after it. -/
theorem TakesTurn.lineAfter_eq {s s' : Watch settings P} {choice : Choice}
    {point : (Layer.watched settings P).Point} {id number delivery : Nat}
    {plain : Layer.Going P.recorded}
    (takes : s.TakesTurn s' choice point id (plain.numbered number delivery)) :
    s'.paced ++ s'.queued = Layer.lineAfter plain s'.layer := by
  have hreaders := takes.readers'
  cases plain with
  | going read =>
      have hone : s'.readers = [⟨id, ⟨number, read⟩⟩] := hreaders
      simp [paced, hone, Layer.lineAfter, queued, pacedBy]
  | ended answer =>
      have hnone : s'.readers = [] := by cases answer <;> exact hreaders
      simp [paced, hnone, Layer.lineAfter, queued]

/-- With one reader, a move is a turn of the only read, or happens aside. -/
theorem turns_or_aside {s s' : Watch settings P} (move : s.Move (alone settings P) s')
    (hfiled : s.Filed) (hone : s.readers.length ≤ 1) :
    (∃ choice point id progress, s.TakesTurn s' choice point id progress) ∨ s.Aside s' := by
  cases move with
  | @turns choice point id before after progress a state enters readers turn =>
      have halone : ∀ caller, point = .outside caller → s.readers = [] :=
        fun caller hpoint => (enters caller hpoint).1.1
      rcases Session.only_reader hone halone readers with ⟨rfl, rfl⟩
      refine .inl ⟨choice, point, id, progress, ?_⟩
      exact ⟨fun caller hpoint => (enters caller hpoint).1, by simpa using readers, by simp, rfl,
        turn⟩
  | @reports delivery outcome settlement before after a state deliveries settles =>
      exact .inr (aside_report hfiled (by simp [deliveries]) rfl rfl settles)
  | connects enters connects => exact .inr (aside_connect enters.1 rfl rfl connects)
  | closes closes => exact .inr (aside_close rfl rfl closes)
  | changes hown =>
      rcases hown with ⟨g, rfl⟩
      exact .inr (aside_change s g)
  | elapses grows => exact .inr (aside_elapse s _)

/-! ## What was pushed -/

/-- All that failures have pushed was handed out again, in order, or is in line, in order,
or was lost by a read that broke off in the layer. -/
structure Ordered (pushed retried : List (Entry (Numbered P.Receipt)))
    (s : Watch settings P) : Prop where
  alone : s.readers.length ≤ 1
  sublist : (retried.map Entry.retryBefore ++ (s.paced ++ s.queued).map Entry.retry).Sublist
    (pushed.map Entry.retry)
  length_eq : retried.length + (s.paced ++ s.queued).length + s.journal.broken.length =
    pushed.length + s.source.broken.length
  marked : ∀ entry ∈ s.paced ++ s.queued, entry.lastFailed.isSome

theorem ordered_start (source : P.State) (a : Ambient) :
    Ordered [] [] (start settings source a) where
  alone := Nat.zero_le _
  sublist := .slnil
  length_eq := rfl
  marked _ h := absurd h List.not_mem_nil

/-- What is pushed is marked with the time of its failure. -/
theorem isSome_of_mem_pushes {s s' : Watch settings P} {entry : Entry (Numbered P.Receipt)}
    (h : entry ∈ s.pushes s') : entry.lastFailed.isSome := by
  rcases List.mem_filterMap.1 h with ⟨⟨number, outcome⟩, -, hpushed⟩
  cases outcome with
  | processed => cases hpushed
  | failed failure =>
      rcases Option.map_eq_some_iff.1 hpushed with ⟨x, -, rfl⟩
      rfl

/-- What happens beside the reads keeps the order. -/
theorem Ordered.aside {pushed retried : List (Entry (Numbered P.Receipt))} {s s' : Watch settings P}
    (h : s.Ordered pushed retried) (aside : s.Aside s') :
    s'.Ordered (pushed ++ s.pushes s') (retried ++ s.retries s') := by
  have hpaced : s'.paced = s.paced := by rw [paced, paced, aside.readers]
  refine ⟨aside.readers ▸ h.alone, ?_, ?_, ?_⟩
  · rw [aside.retries_eq, hpaced, aside.queued, List.append_nil]
    have hpushes := List.Sublist.refl ((s.pushes s').map Entry.retry)
    simpa [List.append_assoc] using h.sublist.append hpushes
  · have hlength := h.length_eq
    rw [aside.retries_eq, hpaced, aside.queued, aside.broken, aside.sourceBroken]
    simp only [List.length_append, List.append_nil] at hlength ⊢
    omega
  · intro entry hentry
    rw [hpaced, aside.queued, ← List.append_assoc, List.mem_append] at hentry
    rcases hentry with hold | hnew
    · exact h.marked entry hold
    · exact isSome_of_mem_pushes hnew

/-- A turn of the only read keeps the order. -/
theorem ordered_turn {pushed retried : List (Entry (Numbered P.Receipt))} {s s' : Watch settings P}
    (h : s.Ordered pushed retried) {choice : Choice} {point : (Layer.watched settings P).Point}
    {id : Nat}
    {progress : Progress (Layer.watched settings P).Read (Layer.watched settings P).Receipt}
    (takes : s.TakesTurn s' choice point id progress) :
    s'.Ordered (pushed ++ s.pushes s') (retried ++ s.retries s') := by
  rcases Port.recorded_turn takes.turn with ⟨plain, hturn, rfl, hjournal⟩
  have hline := takes.line_eq
  have hline' := takes.lineAfter_eq
  have hpushes : s.pushes s' = [] := by simp [pushes_of_append hjournal]
  have hretries : s.retries s' = Layer.retriesOf plain := by
    simp [retries_of_append hjournal, Layer.retriesOf]
  have hbroken : s'.journal.broken.length =
      s.journal.broken.length + (plain.broken (point.number s.journal)).length := by
    simp [journal, hjournal]
  have hmoves := (Layer.turn_cases hturn).moves
  have hmarked := hline ▸ h.marked
  refine ⟨?_, ?_, ?_, ?_⟩
  · simpa [takes.readers'] using Session.length_readers_after id _
  · rw [hline', hpushes, hretries, List.append_nil]
    exact hmoves.sublist hmarked (hline ▸ h.sublist)
  · have hlength : (Layer.retriesOf plain).length + (Layer.lineAfter plain s'.layer).length +
        (plain.broken (point.number s.journal)).length + s.source.broken.length =
          (Layer.line point.plain s.layer).length + s'.source.broken.length :=
      hmoves.length_eq hmarked _
    have hbefore := h.length_eq
    rw [hline] at hbefore
    rw [hline', hpushes, hretries, hbroken]
    simp only [List.length_append, List.length_nil]
    omega
  · rw [hline']
    exact hmoves.marked hmarked

/-- Every move keeps the order. -/
theorem ordered_move {pushed retried : List (Entry (Numbered P.Receipt))} {s s' : Watch settings P}
    (move : s.Move (alone settings P) s') (hfiled : s.Filed) (h : s.Ordered pushed retried) :
    s'.Ordered (pushed ++ s.pushes s') (retried ++ s.retries s') := by
  rcases turns_or_aside move hfiled h.alone with ⟨choice, point, id, progress, takes⟩ | haside
  · exact ordered_turn h takes
  · exact h.aside haside

/-- In every session with one reader, what was pushed was retried, or is in line, in
order. -/
theorem Chronicle.ordered {source : P.State} {a : Ambient}
    {pushed retried : List (Entry (Numbered P.Receipt))} {s : Watch settings P}
    (h : Chronicle source a pushed retried s) : s.Ordered pushed retried := by
  induction h with
  | begins => exact ordered_start source a
  | step hbefore hstep ih =>
      have hreach := hbefore.reaches
      have hmove := hstep.move (hreach.distinct (Session.distinct_new _ _))
      exact ordered_move hmove (filed_of_reaches (fun _ hf => hf) hreach) ih

/-- If reads broke off in the source only, nothing that was pushed was lost. -/
theorem Ordered.eq {pushed retried : List (Entry (Numbered P.Receipt))} {s : Watch settings P}
    (h : s.Ordered pushed retried)
    (returned : s.journal.broken.length ≤ s.source.broken.length) :
    pushed.map Entry.retry =
      retried.map Entry.retryBefore ++ (s.paced ++ s.queued).map Entry.retry := by
  refine (h.sublist.eq_of_length_le ?_).symm
  have hlength := h.length_eq
  simp only [List.length_map, List.length_append] at hlength ⊢
  omega

/-! ## Counts -/

/-- How many failures were reported. -/
def failures (s : Watch settings P) : Nat := s.journal.reports.countP fun x => !x.2.isProcessed

/-- A report is counted if it is one of a failure. -/
theorem failures_report {s s' : Watch settings P} {id : Nat} {outcome : Outcome}
    {settlement : Settlement} (h : s.report id outcome = some (settlement, s')) :
    s'.failures = s.failures + if outcome.isProcessed then 0 else 1 := by
  rcases Session.report_eq_some h with ⟨delivery, -, -, hsettle, -⟩
  rcases Port.recorded_settle hsettle with ⟨-, hjournal⟩
  rw [failures, failures, journal, hjournal, Journal.reports_append, List.countP_append]
  cases outcome <;> rfl

/-- In a turn of a read no failure is reported. -/
theorem TakesTurn.failures_eq {s s' : Watch settings P} {choice : Choice}
    {point : (Layer.watched settings P).Point} {id : Nat}
    {progress : Progress (Layer.watched settings P).Read (Layer.watched settings P).Receipt}
    (takes : s.TakesTurn s' choice point id progress) : s'.failures = s.failures := by
  rw [failures, failures, journal, (Port.recorded_turn_issued takes.turn).2.1]

/-- Connecting reports no failure. -/
theorem failures_connect {s s' : Watch settings P} {caller : Scope}
    {result : Except ReadError Unit} (h : s.connect caller = (result, s')) :
    s'.failures = s.failures := by
  rcases h with ⟨rfl, rfl⟩
  simp [failures, journal, Exchange.reports]

/-- Closing reports no failure. -/
theorem failures_close {s s' : Watch settings P} {caller : Scope}
    {result : Except ReadError Unit} (h : s.close caller = (result, s')) :
    s'.failures = s.failures := by
  rcases h with ⟨rfl, rfl⟩
  simp [failures, journal, Exchange.reports]

/-- How many entries were handed out again. -/
def retried (s : Watch settings P) : Nat :=
  s.journal.issued.countP fun x => x.2.entry.lastFailed.isSome

/-- What was pushed and what was retried is counted in the journal. -/
theorem Chronicle.counts {source : P.State} {a : Ambient}
    {pushed retried : List (Entry (Numbered P.Receipt))} {s : Watch settings P}
    (h : Chronicle source a pushed retried s) :
    pushed.length ≤ s.failures ∧ retried.length = s.retried := by
  induction h with
  | begins => exact ⟨Nat.zero_le _, rfl⟩
  | @step pushed retried s s' hbefore hstep ih =>
      have hdistinct := hbefore.reaches.distinct (Session.distinct_new _ _)
      rcases journal_move (fun _ hf => hf) (hstep.move hdistinct) with ⟨more, hmore, -⟩
      have hpushes : (s.pushes s').length ≤ more.reports.countP fun x => !x.2.isProcessed := by
        rw [pushes_of_append hmore, List.length_filterMap_eq_countP]
        refine List.countP_mono_left fun x _ hx => ?_
        rcases x with ⟨number, _ | failure⟩
        · cases hx
        · rfl
      have hretries : (s.retries s').length =
          more.issued.countP fun x => x.2.entry.lastFailed.isSome := by
        rw [retries_of_append hmore, ← List.countP_eq_length_filter, List.countP_map]
        rfl
      constructor
      · rw [failures, hmore, Journal.reports_append, List.countP_append, List.length_append]
        exact Nat.add_le_add ih.1 hpushes
      · rw [Watch.retried, hmore, Journal.issued_append, List.countP_append, List.length_append,
          ih.2, hretries]
        rfl

/-- Every entry that was handed out again, or is in line, has failed before. -/
theorem retried_add_le {source : P.State} {a : Ambient} {s : Watch settings P}
    (h : Session.Reaches (alone settings P) (start settings source a) s) :
    s.retried + (s.paced.length + s.queued.length) ≤ s.failures := by
  rcases exists_chronicle h with ⟨pushed, retried, hchronicle⟩
  rcases hchronicle.counts with ⟨hpushed, hretried⟩
  have hlength := hchronicle.ordered.sublist.length_le
  simp only [List.length_append, List.length_map] at hlength
  omega

/-! ## A read from its beginning on -/

/-- A read that began in a session: the entries that failures have pushed since, the reply
if the read has ended, and the session then. -/
inductive Call (s₀ : Watch settings P) (caller : Scope) :
    List (Entry (Numbered P.Receipt)) → Option Reply → Watch settings P → Prop
  | begins (choice : Choice) :
      Call s₀ caller [] (s₀.startRead choice caller).1 (s₀.startRead choice caller).2
  /-- Something else happens while the read is in progress. -/
  | waits {pushed : List (Entry (Numbered P.Receipt))} {s s' : Watch settings P} :
      Call s₀ caller pushed none s → Session.Step (alone settings P) s s' →
        s'.readers = s.readers → Call s₀ caller (pushed ++ s.pushes s') none s'
  | goesOn {pushed : List (Entry (Numbered P.Receipt))} {s s' : Watch settings P}
      {choice : Choice} {reply : Option Reply} : Call s₀ caller pushed none s →
        s.stepRead choice s₀.next = some (reply, s') → Call s₀ caller pushed reply s'

/-- What becomes of a read that begins with a backlog: it serves the first entry. -/
inductive Serves (s₀ : Watch settings P) (caller : Scope) (entry : Entry (Numbered P.Receipt))
    (rest pushed : List (Entry (Numbered P.Receipt))) : Option Reply → Watch settings P → Prop
  /-- The entry is kept until its delay is over or the caller cancels; then the read can go
  on. -/
  | paces {s : Watch settings P} {choice : Choice} {delay : Duration} {backoff : Backoff}
      {number : Nat} {scope : Scope}
      (next : entry.backoff.next choice.pick = .ok (delay, backoff))
      (reader : s.readers = [⟨s₀.next, number, .pacing caller scope { entry with backoff }
        (s₀.ambient.now + delay.clockMillis)⟩])
      (queued : s.queued = rest ++ pushed) (issued : s.journal.issued = s₀.journal.issued) :
      Serves s₀ caller entry rest pushed none s
  /-- The entry is handed out. -/
  | delivers {s : Watch settings P} {backoff : Backoff} {batch : Batch}
      {held : Held (Numbered P.Receipt)}
      (again : held.entry = { entry with attempts := entry.attempts + 1, backoff })
      (delivers : held.Delivers batch)
      (issued : s.journal.issued = s₀.journal.issued ++ [(batch, held)])
      (queued : s.queued = rest ++ pushed) (readers : s.readers = []) :
      Serves s₀ caller entry rest pushed (some (.delivered batch)) s
  /-- The caller has cancelled, and the entry is where it was. -/
  | abandons {s : Watch settings P} {backoff : Backoff}
      (cancelled : s.ambient.scopes.IsCancelled caller)
      (queued : s.queued = { entry with backoff } :: rest ++ pushed) (readers : s.readers = [])
      (issued : s.journal.issued = s₀.journal.issued) :
      Serves s₀ caller entry rest pushed (some (.failed .cancelled)) s
  /-- There is no next delay: the read breaks off. -/
  | breaks {s : Watch settings P} {choice : Choice} {reason : Duration.OutOfRange}
      (late : settings.backoffAfter < entry.attempts + 1)
      (next : entry.backoff.next choice.pick = .error reason) :
      Serves s₀ caller entry rest pushed (some (.died reason.message)) s

/-- What a read that serves the backlog leaves alone: it calls the source for nothing, and
what is pending and whether the source has ended do not depend on it. -/
structure Untouched (s₀ s : Watch settings P) : Prop where
  callers : s.source.callers = s₀.source.callers
  closed : s.layer.inputClosed = s₀.layer.inputClosed
  pending : s.layer.pending + s.source.reports.length =
    s₀.layer.pending + s₀.source.reports.length

theorem Untouched.trans {s s' s'' : Watch settings P} (h : s.Untouched s')
    (h' : s'.Untouched s'') : s.Untouched s'' where
  callers := h'.callers.trans h.callers
  closed := h'.closed.trans h.closed
  pending := h'.pending.trans h.pending

theorem Untouched.aside {s₀ s s' : Watch settings P} (h : s₀.Untouched s) (aside : s.Aside s')
    (inside : s.readers ≠ []) : s₀.Untouched s' where
  callers := aside.sourceCallers.trans h.callers
  closed := (aside.closed inside).trans h.closed
  pending := aside.pending.trans h.pending

/-- A read that begins with a backlog takes its first entry. -/
theorem serves_startRead {s : Watch settings P} (alone : s.readers = [])
    {entry : Entry (Numbered P.Receipt)} {rest : List (Entry (Numbered P.Receipt))}
    (head : s.queued = entry :: rest) (choice : Choice) (caller : Scope) :
    s.Serves caller entry rest [] (s.startRead choice caller).1 (s.startRead choice caller).2 ∧
      s.Untouched (s.startRead choice caller).2 := by
  rcases hstart : (Layer.watched settings P).start choice caller s.ambient s.state with
    ⟨progress, a, ⟨journal', layer'⟩⟩
  have hturn : (Layer.watched settings P).turn choice (.outside caller) s.ambient s.state =
      some (progress, a, ⟨journal', layer'⟩) := congrArg some hstart
  rcases Port.recorded_turn hturn with ⟨plain, hplain, rfl, hjournal⟩
  have hissued : journal'.issued = s.journal.issued ++ plain.issued := by
    rw [show journal' = _ from hjournal]
    simp
  rw [Session.startRead_eq hstart]
  cases Layer.turn_cases hplain with
  | arms empty => exact absurd empty (by simp [show s.layer.backlog.entries = _ from head])
  | redelivers head' atOnce hands =>
      obtain ⟨rfl, rfl⟩ := List.cons.inj (head.symm.trans head')
      refine ⟨.delivers hands.entry_eq hands.delivers ?_ ?_ ?_, ⟨rfl, rfl, rfl⟩⟩
      · exact hissued
      · simp [queued]
      · simp [alone, Reader.after, Progress.numbered]
  | breaks head' late next =>
      obtain ⟨rfl, rfl⟩ := List.cons.inj (head.symm.trans head')
      exact ⟨.breaks late next, ⟨rfl, rfl, rfl⟩⟩
  | paces head' late next positive =>
      obtain ⟨rfl, rfl⟩ := List.cons.inj (head.symm.trans head')
      refine ⟨.paces next (congrArg (· ++ _) alone) ?_ ?_, ⟨rfl, rfl, rfl⟩⟩
      · simp [queued]
      · simpa [Progress.issued] using hissued
  | asks asks | receives asks | fails asks | dies asks => cases asks
  | ends atEnd | holds atEnd =>
      cases atEnd with
      | answered asks => cases asks

/-- A pause goes on while something else happens. -/
theorem Serves.aside {s₀ s s' : Watch settings P} {caller : Scope}
    {entry : Entry (Numbered P.Receipt)} {rest pushed : List (Entry (Numbered P.Receipt))}
    (h : s₀.Serves caller entry rest pushed none s) (aside : s.Aside s') :
    s₀.Serves caller entry rest (pushed ++ s.pushes s') none s' := by
  cases h with
  | paces next reader queued issued₀ =>
      refine .paces next (aside.readers.trans reader) ?_ (aside.issued.trans issued₀)
      rw [aside.queued, queued, List.append_assoc]

/-- A pause ends as the entry is handed out, or is put back. -/
theorem Serves.stepRead {s₀ s s' : Watch settings P} {caller : Scope}
    {entry : Entry (Numbered P.Receipt)} {rest pushed : List (Entry (Numbered P.Receipt))}
    (h : s₀.Serves caller entry rest pushed none s) (hs : s.Distinct) {choice : Choice}
    {reply : Option Reply} (step : s.stepRead choice s₀.next = some (reply, s')) :
    s₀.Serves caller entry rest pushed reply s' ∧ s.Untouched s' := by
  cases h with
  | @paces _ paced delay backoff number scope next reader queued issued =>
      rcases Session.stepRead_of_only hs reader step with
        ⟨progress, a, ⟨journal', layer'⟩, hstep, rfl, rfl⟩
      have hturn : (Layer.watched settings P).turn choice (.inside _) s.ambient s.state =
          some (progress, a, ⟨journal', layer'⟩) := hstep
      rcases Port.recorded_turn hturn with ⟨plain, hplain, rfl, hjournal⟩
      have hissued : journal'.issued = s₀.journal.issued ++ plain.issued := by
        rw [← issued, show journal' = _ from hjournal]
        simp
      cases Layer.turn_cases hplain with
      | resumes passed hands =>
          exact ⟨.delivers hands.entry_eq hands.delivers hissued queued rfl, ⟨rfl, rfl, rfl⟩⟩
      | putsBack cancelled =>
          have hback := congrArg ({ entry with backoff } :: ·) queued
          have hcancelled := cancelled.mono (s.ambient.scopes.grows_cancel scope)
          refine ⟨.abandons hcancelled hback rfl ?_, ⟨rfl, rfl, rfl⟩⟩
          simpa [Progress.issued] using hissued
      | asks asks | receives asks | fails asks | dies asks => cases asks
      | ends atEnd | holds atEnd =>
          cases atEnd with
          | answered asks => cases asks

/-- The turn of a read that pauses ends it. -/
theorem ended_of_paced {choice : Choice} {number : Nat} {read : Layer.Reading P.recorded}
    (paced : read.entries ≠ []) {a a' : Ambient} {state state' : (Layer.watched settings P).State}
    {progress : Progress (Layer.watched settings P).Read (Layer.watched settings P).Receipt}
    (turn : (Layer.watched settings P).turn choice (.inside ⟨number, read⟩) a state =
      some (progress, a', state')) (id : Nat) : Reader.after id progress = [] := by
  rcases state' with ⟨journal, layer⟩
  rcases Port.recorded_turn turn with ⟨plain, hturn, rfl, -⟩
  have hpaced : Layer.entriesBefore (.inside read : (Layer.port settings P.recorded).Point) ≠ [] :=
    paced
  cases Layer.turn_cases hturn with
  | resumes | putsBack => rfl
  | asks asks | receives asks | fails asks | dies asks => exact absurd asks.entriesBefore_eq hpaced
  | ends atEnd | holds atEnd => exact absurd atEnd.source_eq.2.2 hpaced
  | interrupted cancelled => exact absurd rfl hpaced

/-- While the only read pauses, what leaves it in progress happens beside it. -/
theorem aside_of_paced {s s' : Watch settings P} (move : s.Move (alone settings P) s')
    (hfiled : s.Filed) {reader : Reader (Layer.watched settings P)} (readers : s.readers = [reader])
    (paced : reader.read.value.entries ≠ []) (same : s'.readers = s.readers) : s.Aside s' := by
  rcases turns_or_aside move hfiled (by simp [readers]) with
    ⟨choice, point, id, progress, takes⟩ | haside
  · have hpoint := readers.symm.trans takes.readers
    cases point with
    | outside caller => exact absurd hpoint (by simp [Port.Point.readers])
    | inside read =>
        obtain rfl : reader = ⟨id, read⟩ := by simpa [Port.Point.readers] using hpoint
        have hended := ended_of_paced paced takes.turn id
        exact absurd (readers.symm.trans (same.symm.trans (takes.readers'.trans hended))) (by simp)
  · exact haside

/-- What is in progress after a read began is reached. -/
theorem Call.reaches {source : P.State} {a : Ambient} {s₀ s : Watch settings P}
    (h₀ : Session.Reaches (alone settings P) (start settings source a) s₀) {caller : Scope}
    (enters : (alone settings P).enters s₀ caller)
    {pushed : List (Entry (Numbered P.Receipt))} {reply : Option Reply}
    (call : s₀.Call caller pushed reply s) :
    Session.Reaches (alone settings P) (start settings source a) s := by
  induction call with
  | begins choice => exact h₀.step (.startRead choice enters)
  | waits _ hstep _ ih => exact ih.step hstep
  | goesOn _ hstep ih => exact ih.step (.stepRead hstep)

/-- A read that begins with a backlog serves its first entry, and leaves the source and the
counts alone. -/
theorem Call.serves {source : P.State} {a : Ambient} {s₀ s : Watch settings P}
    (h₀ : Session.Reaches (alone settings P) (start settings source a) s₀) {caller : Scope}
    (enters : (alone settings P).enters s₀ caller) {entry : Entry (Numbered P.Receipt)}
    {rest : List (Entry (Numbered P.Receipt))} (head : s₀.queued = entry :: rest)
    {pushed : List (Entry (Numbered P.Receipt))} {reply : Option Reply}
    (call : s₀.Call caller pushed reply s) :
    s₀.Serves caller entry rest pushed reply s ∧ s₀.Untouched s := by
  induction call with
  | begins choice => exact serves_startRead enters.1 head choice caller
  | @waits pushed s s' before step same ih =>
      have hreach := before.reaches h₀ enters
      have hmove := step.move (hreach.distinct (Session.distinct_new _ _))
      have hfiled := filed_of_reaches (fun _ hf => hf) hreach
      rcases ih with ⟨hserves, huntouched⟩
      cases hserves with
      | paces next reader queued issued =>
          have haside := aside_of_paced hmove hfiled reader (by simp [Layer.Reading.entries]) same
          refine ⟨.aside (.paces next reader queued issued) haside, ?_⟩
          exact huntouched.aside haside (by simp [reader])
  | goesOn before step ih =>
      have hdistinct := (before.reaches h₀ enters).distinct (Session.distinct_new _ _)
      rcases ih.1.stepRead hdistinct step with ⟨hserves, huntouched⟩
      exact ⟨hserves, ih.2.trans huntouched⟩

/-- Failures are served in their order, before anything new is read.

* What failures have pushed was handed out again, or is in line, in the same order; none of
  it is lost unless a read breaks off in the layer itself.
* A read that begins with a backlog serves the first entry of it. -/
structure InOrder (pushed retried : List (Entry (Numbered P.Receipt)))
    (s : Watch settings P) : Prop where
  eq : s.journal.broken.length ≤ s.source.broken.length →
    pushed.map Entry.retry =
      retried.map Entry.retryBefore ++ s.paced.map Entry.retry ++ s.queued.map Entry.retry
  sublist : (retried.map Entry.retryBefore ++ s.paced.map Entry.retry ++
    s.queued.map Entry.retry).Sublist (pushed.map Entry.retry)
  serves : ∀ caller entry rest, (alone settings P).enters s caller → s.queued = entry :: rest →
    ∀ more reply s', s.Call caller more reply s' →
      s.Serves caller entry rest more reply s' ∧ s.Untouched s'

/-- Failures are served in their order, in any session with one reader. -/
theorem first_come {source : P.State} {a : Ambient}
    {pushed retried : List (Entry (Numbered P.Receipt))} {s : Watch settings P}
    (h : Chronicle source a pushed retried s) : s.InOrder pushed retried where
  eq returned := by simpa using h.ordered.eq returned
  sublist := by simpa using h.ordered.sublist
  serves _ _ _ enters head _ _ _ call := call.serves h.reaches enters head

/-- A failure of the first part is pushed, and the next read serves it. -/
theorem first_come_tour : ∃ pushed retried,
    Chronicle (Memory.finite [Tour.batch]) (.start .epoch) pushed retried Tour.failed ∧
      pushed ≠ [] ∧ Tour.failed.queued ≠ [] ∧ Tour.failed.InOrder pushed retried := by
  rcases exists_chronicle Tour.reached_failed with ⟨pushed, retried, h⟩
  have hqueued : Tour.failed.queued ≠ [] := by decide
  have horder := first_come h
  refine ⟨pushed, retried, h, ?_, hqueued, horder⟩
  rintro rfl
  have hnone := horder.eq (by decide)
  simp [hqueued] at hnone

/-! ## A delay that is none

Of the longest interval, jitter can make one that is too long.  The read that has taken
the entry breaks off, and the entry is lost. -/

namespace Tour

/-- The longest interval from the beginning, with the least jitter that there is. -/
def vast : Settings where
  backoff := ⟨.ofNanos (2 ^ 64 * nanosPerSecond), .ofNanos (2 ^ 64 * nanosPerSecond), .ofNat 1,
    .ofBits 1⟩
  backoffAfter := 0
  drainPoll := .ofMillis 10

/-- Somebody has a scope. -/
def vastOpened : Watch vast Memory.port :=
  let s : Watch vast Memory.port := start vast (.finite [batch]) (.start .epoch)
  (s.scope false).2

/-- The batch is read. -/
def vastRead : Watch vast Memory.port :=
  ((vastOpened.startRead choice caller).2.goOn choice 0).goOn choice 0

/-- The batch has failed. -/
def vastFailed : Watch vast Memory.port := vastRead.told 0 (.failed (.whole "too large"))

/-- The next read has broken off. -/
def vastBroken : Watch vast Memory.port := (vastFailed.startRead choice caller).2

theorem reached_vastFailed : Session.Reaches (alone vast Memory.port)
    (start vast (.finite [batch]) (.start .epoch)) vastFailed := by
  have hopened : Session.Reaches (alone vast Memory.port)
      (start vast (.finite [batch]) (.start .epoch)) vastOpened := .step .start (.scope _ false)
  have hbegun : Session.Reaches (alone vast Memory.port)
      (start vast (.finite [batch]) (.start .epoch)) (vastOpened.startRead choice caller).2 :=
    hopened.step (.startRead choice ⟨rfl, by decide⟩)
  exact ((hbegun.goOn choice 0).goOn choice 0).told 0 _

end Tour

/-- What was pushed is neither retried nor in line once its read has broken off. -/
theorem lost_by_break : ∃ pushed retried,
    Chronicle (Memory.finite [Tour.batch]) (.start .epoch) pushed retried Tour.vastBroken ∧
      Tour.vastBroken.source.broken = [] ∧
      pushed.map Entry.retry ≠ retried.map Entry.retryBefore ++
        Tour.vastBroken.paced.map Entry.retry ++ Tour.vastBroken.queued.map Entry.retry := by
  rcases exists_chronicle Tour.reached_vastFailed with ⟨pushed, retried, h⟩
  have hstep : Session.Step (alone Tour.vast Memory.port) Tour.vastFailed Tour.vastBroken :=
    .startRead Tour.choice ⟨by decide, by decide⟩
  refine ⟨_, _, h.step hstep, by decide +kernel, ?_⟩
  have hpushes : Tour.vastFailed.pushes Tour.vastBroken = [] := by decide +kernel
  have hretries : Tour.vastFailed.retries Tour.vastBroken = [] := by decide +kernel
  have hpaced : Tour.vastBroken.paced = [] := by decide +kernel
  have hqueued : Tour.vastBroken.queued = [] := by decide +kernel
  -- One more was pushed than retried, and nobody is left in line.
  have hbefore : pushed.length =
      retried.length + (Tour.vastFailed.paced.length + Tour.vastFailed.queued.length) := by
    simpa using congrArg List.length (h.ordered.eq (by decide))
  have hline : Tour.vastFailed.queued.length = 1 := by decide
  intro heq
  have hafter : pushed.length = retried.length := by
    simpa [hpushes, hretries, hpaced, hqueued] using congrArg List.length heq
  omega

end Watch

end Redelivery
