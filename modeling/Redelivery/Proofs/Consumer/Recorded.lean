import Mathlib.Data.List.Nodup
import Redelivery.Proofs.Consumer.Reach
import Redelivery.Proofs.Session.Recorded

/-!
# A consumer with a journal

What a consumer does can be written down on both sides of it: what passes between it and its
port, and what its processor has done.  Deliveries are numbered in their order, and a report
carries the number of its delivery.

Whatever the order in which tasks end, every task processes the batch of its own delivery,
and reports on that delivery what came of it.  So the reports tell, one for one, what the
processor has done with the batches that were handed out.

Main definitions:

* `Processor.recorded`: a processor that writes down what it has done.
* `Consumer.recording`: a consumer with a journal that is about to connect.
* `Journal.Tells`: a report tells what came of the batch that it is about.
* `Consumer.Kept`: every task has its delivery, and every report tells what was done.

Main results:

* Theorem `Consumer.Move.kept`, `Consumer.Reaches.kept`: whatever happens keeps it so.
* Theorem `Consumer.Kept.reported`, `Consumer.Kept.settled`: when all tasks have ended, every
  delivery is reported on once, with what came of its batch.
-/

namespace Redelivery

/-! ## What a processor has done -/

/-- The state of a processor, with what it has done: each batch with what came of it, in the
order in which processing ended. -/
structure Worked (W : Processor) where
  log : List (Batch × Option Outcome)
  state : W.State

namespace Processor

variable {W : Processor}

/-- The processor that writes down what it has done. -/
abbrev recorded (W : Processor) : Processor where
  State := Worked W
  Job := Batch × W.Job
  start now batch s :=
    let (job, span, state) := W.start now batch s.state
    ((batch, job), span, ⟨s.log, state⟩)
  finish job mint s :=
    let (outcome, mint, state) := W.finish job.2 mint s.state
    (outcome, mint, ⟨s.log ++ [(job.1, outcome)], state⟩)

/-- It is as steady as the processor itself. -/
theorem Steady.recorded (h : W.Steady) : W.recorded.Steady :=
  fun job mint s => h job.2 mint s.state

end Processor

/-- The batch that is processed at some stage. -/
def Stage.batch {W : Processor} : Stage W.recorded → Batch
  | .spawned batch => batch
  | .working job _ => job.1

/-- The number of the delivery that a task processes, and its batch. -/
def Task.handles {W : Processor} (task : Task W.recorded) : Nat × Batch :=
  (task.id, task.stage.batch)

/-- A report tells what came of the batch that it is about. -/
def Journal.Tells {ρ : Type} (journal : Journal ρ) (report : Nat × Outcome)
    (done : Batch × Option Outcome) : Prop :=
  (∃ receipt, journal.issued[report.1]? = some (done.1, receipt)) ∧
    report.2 = done.2.getD Consumer.brokeOff

namespace Consumer

variable {P : Port} {W : Processor}

/-- A consumer with a journal that is about to connect a port that nobody has used. -/
def recording (source : P.State) (a : Ambient) (worker : W.State) (delay : Duration) :
    Consumer P.recorded W.recorded :=
  .new (.new a ⟨[], source⟩) ⟨[], worker⟩ delay

/-- What has passed between a consumer and its port. -/
abbrev journal (c : Consumer P.recorded W) : Journal P.Receipt := c.session.journal

/-- What the processor of a consumer has done. -/
abbrev log (c : Consumer P W.recorded) : List (Batch × Option Outcome) := c.worker.log

/-! ## Every task has its delivery -/

/-- Every task processes the batch of its delivery, and every report tells what was done. -/
structure Kept (c : Consumer P.recorded W.recorded) : Prop where
  agrees : c.Agrees
  filed : c.session.Filed
  booked : c.session.Booked
  tasks : c.phase ≠ .died →
    c.tasks.map Task.handles =
      c.session.deliveries.map fun delivery => (delivery.id, delivery.batch)
  died : c.phase = .died → c.tasks = []
  log : List.Forall₂ c.journal.Tells c.journal.reports c.log

theorem kept_recording (source : P.State) (a : Ambient) (worker : W.State) (delay : Duration) :
    (recording (W := W) source a worker delay).Kept where
  agrees := ⟨⟨List.nodup_nil, fun _ h => absurd h List.not_mem_nil⟩, rfl, fun _ => rfl, nofun⟩
  filed _ h := absurd h List.not_mem_nil
  booked := .refl _
  tasks _ := rfl
  died := nofun
  log := .nil

/-- A report tells the same when the journal has become longer. -/
theorem tells_append {ρ : Type} {journal : Journal ρ} {report : Nat × Outcome}
    {done : Batch × Option Outcome} (h : journal.Tells report done) (more : Journal ρ) :
    Journal.Tells (journal ++ more) report done := by
  rcases h with ⟨⟨receipt, hissued⟩, houtcome⟩
  refine ⟨⟨receipt, ?_⟩, houtcome⟩
  rw [Journal.issued_append]
  exact getElem?_append_of_eq_some hissued _

/-- As long as nothing is reported, the reports tell what was done. -/
theorem log_append {ρ : Type} {journal more : Journal ρ} {log : List (Batch × Option Outcome)}
    (h : List.Forall₂ journal.Tells journal.reports log) (silent : more.reports = []) :
    List.Forall₂ (Journal.Tells (journal ++ more)) (Journal.reports (journal ++ more)) log := by
  rw [Journal.reports_append, silent, List.append_nil]
  exact h.imp fun _ _ htells => tells_append htells more

/-- A consumer that knows its tasks as before, and has not reported, is kept. -/
theorem Kept.same {c c' : Consumer P.recorded W.recorded} (h : c.Kept) (agrees : c'.Agrees)
    (filed : c'.session.Filed) (booked : c'.session.Booked)
    (tasks : c'.phase ≠ .died → c'.tasks.map Task.handles =
      c'.session.deliveries.map fun delivery => (delivery.id, delivery.batch))
    (died : c'.phase = .died → c'.tasks = [])
    (journal : ∃ more, c'.journal = c.journal ++ more ∧ more.reports = [])
    (log : c'.log = c.log) : c'.Kept := by
  rcases journal with ⟨more, hmore, hsilent⟩
  refine ⟨agrees, filed, booked, tasks, died, ?_⟩
  rw [hmore, log]
  exact log_append h.log hsilent

/-- A consumer whose tasks and deliveries stay as they are is kept as long as it reports
nothing. -/
theorem Kept.still {c c' : Consumer P.recorded W.recorded} (h : c.Kept) (agrees : c'.Agrees)
    (books : c'.session.Filed ∧ c'.session.Booked)
    (tasks : c'.tasks.map Task.handles = c.tasks.map Task.handles)
    (deliveries : c'.session.deliveries = c.session.deliveries)
    (phase : c'.phase = c.phase ∨ c.phase ≠ .died ∧ c'.phase ≠ .died)
    (journal : ∃ more, c'.journal = c.journal ++ more ∧ more.reports = [])
    (log : c'.log = c.log) : c'.Kept := by
  refine h.same agrees books.1 books.2 (fun hlives => ?_) (fun hdied => ?_) journal log
  · rw [tasks, deliveries]
    rcases phase with hsame | ⟨hlives', -⟩
    · exact h.tasks (hsame ▸ hlives)
    · exact h.tasks hlives'
  · rcases phase with hsame | ⟨-, hlives⟩
    · rw [h.died (hsame ▸ hdied), List.map_nil] at tasks
      exact List.map_eq_nil_iff.1 tasks
    · exact absurd hdied hlives

/-- A task that begins to work goes on to handle its batch. -/
theorem handles_works {tasks : List (Task W.recorded)} {id due : Nat} {batch : Batch} {job : W.Job}
    (nodup : (tasks.map Task.id).Nodup) (mem : ⟨id, .spawned batch⟩ ∈ tasks) :
    (tasks.map fun t => if t.id = id then ⟨id, .working (batch, job) due⟩ else t).map
      Task.handles = tasks.map Task.handles := by
  rw [List.map_map]
  refine List.map_congr_left fun t ht => ?_
  by_cases hid : t.id = id
  · obtain rfl : t = ⟨id, .spawned batch⟩ := List.inj_on_of_nodup_map nodup ht mem hid
    simp [Task.handles, Stage.batch]
  · simp [hid]

/-- The delivery of a task that works has the batch that it works on. -/
theorem Kept.batch_eq {c : Consumer P.recorded W.recorded} (h : c.Kept) (hlives : c.phase ≠ .died)
    {id due : Nat} {job : W.recorded.Job} (task : ⟨id, .working job due⟩ ∈ c.tasks)
    {delivery : Delivery P.recorded} (mem : delivery ∈ c.session.deliveries)
    (own : delivery.id = id) : delivery.batch = job.1 := by
  have hhandles : (id, job.1) ∈ c.tasks.map Task.handles := List.mem_map.2 ⟨_, task, rfl⟩
  rw [h.tasks hlives] at hhandles
  rcases List.mem_map.1 hhandles with ⟨other, hother, heq⟩
  rcases Prod.mk.inj heq with ⟨hid, hbatch⟩
  have hnodup := (List.nodup_append.1 h.agrees.distinct.nodup).2.1
  obtain rfl : delivery = other :=
    List.inj_on_of_nodup_map hnodup mem hother (own.trans hid.symm)
  exact hbatch

/-- After the loop broke off, nothing is done any more. -/
theorem Kept.lives {c c' : Consumer P.recorded W.recorded} (h : c.Kept) (deed : Deed c c') :
    c.phase ≠ .died := by
  intro hdied
  cases deed with
  | stops between => simp [hdied, Phase.between] at between
  | connects phase | resumes phase | begins phase | reads phase | tallies phase | finishes phase =>
      simp [hdied] at phase
  | works task | reports task =>
      rw [h.died hdied] at task
      cases task

/-- Whatever happens to a consumer, its deliveries stay filed, and every number in one place. -/
theorem Move.books {W : Processor} (steady : W.Steady)
    {changes : (Recorded P → Recorded P) → Prop} (own : ∀ f, changes f → Recorded.Changes f)
    {c c' : Consumer P.recorded W} (move : Move changes c c') (distinct : c.session.Distinct)
    (filed : c.session.Filed) (booked : c.session.Booked) :
    c'.session.Filed ∧ c'.session.Booked := by
  have hsession := Move.session (P := P.recorded) (D := ⟨fun _ _ => True, changes⟩) steady move
    fun _ _ => trivial
  rcases hsession with hsame | ⟨a, -, hstep⟩
  · rw [hsame]
    exact ⟨filed, booked⟩
  · have hdistinct : Session.Distinct { c.session with ambient := a } :=
      ⟨distinct.nodup, distinct.lt_next⟩
    have hmove := hstep.move hdistinct
    exact ⟨hmove.filed own filed, hmove.booked own booked⟩

/-- After a turn of its read a consumer has a task for what was handed out. -/
theorem Kept.afterRead {c : Consumer P.recorded W.recorded} (h : c.Kept) (lives : c.phase ≠ .died)
    {session : Session P.recorded} {choice : Choice} {point : P.recorded.Point} {id : Nat}
    {progress : Progress P.recorded.Read P.recorded.Receipt}
    (turn : P.recorded.turn choice point c.session.ambient c.session.state =
      some (progress, session.ambient, session.state))
    (deliveries : session.deliveries = c.session.deliveries ++ Delivery.after id progress)
    (agrees : (c.afterRead id session progress.reply).Agrees)
    (books : session.Filed ∧ session.Booked) :
    (c.afterRead id session progress.reply).Kept := by
  rcases Port.recorded_turn turn with ⟨plain, -, rfl, hjournal⟩
  have hsession := session_afterRead c id session
  have hsilent : (point.plain.exchanges ++
      plain.exchanges (point.number c.journal) : Journal P.Receipt).reports = [] := by simp
  refine h.same agrees ?_ ?_ ?_ ?_ ⟨_, ?_, hsilent⟩ ?_
  · rw [hsession]
    exact books.1
  · rw [hsession]
    exact books.2
  · intro hlives
    rw [hsession, deliveries, List.map_append, ← h.tasks lives]
    rcases plain with read | ⟨batch, receipt⟩ | error | reason
    · simp [Consumer.afterRead, Progress.reply, Progress.numbered, Delivery.after]
    · simp [Consumer.afterRead, Progress.reply, Progress.numbered, Delivery.after, Answer.reply,
        take, tally, Task.handles, Stage.batch]
    · cases error <;>
        simp [Consumer.afterRead, Progress.reply, Progress.numbered, Delivery.after, Answer.reply,
          take, pause]
    · exact absurd rfl hlives
  · intro hdied
    rcases plain with read | ⟨batch, receipt⟩ | error | reason
    · cases hdied
    · cases hdied
    · cases error <;> cases hdied
    · rfl
  · rw [journal, hsession]
    exact hjournal
  · rcases plain with read | ⟨batch, receipt⟩ | error | reason
    · rfl
    · rfl
    · cases error <;> rfl
    · rfl

/-- Whatever happens, every task has its delivery, and every report tells what was done. -/
theorem Move.kept (steady : W.Steady) {changes : (Recorded P → Recorded P) → Prop}
    (own : ∀ f, changes f → Recorded.Changes f) {c c' : Consumer P.recorded W.recorded}
    (move : Move changes c c') (h : c.Kept) : c'.Kept := by
  have hagrees := move.agrees steady.recorded h.agrees
  have hbooks := move.books steady.recorded own h.agrees.distinct h.filed h.booked
  have hreaders := h.agrees.readers
  have hstill : ∃ more, c.journal = c.journal ++ more ∧ more.reports = [] :=
    ⟨[], (List.append_nil _).symm, rfl⟩
  cases move with
  | changes hown =>
      rcases own _ hown with ⟨g, rfl⟩
      exact h.still hagrees hbooks rfl rfl (.inl rfl) hstill rfl
  | elapses grows => exact h.still hagrees hbooks rfl rfl (.inl rfl) hstill rfl
  | acts deed =>
  have hlives := h.lives deed
  cases deed with
  | stops | resumes => exact h.still hagrees hbooks rfl rfl (.inr ⟨hlives, nofun⟩) hstill rfl
  | tallies phase => exact h.still hagrees hbooks rfl rfl (.inl rfl) hstill rfl
  | @connects result session phase going connects =>
      have hjournal := (Port.recorded_connect (Session.connect_eq connects)).2
      have hdeliveries : session.deliveries = c.session.deliveries := by
        obtain rfl : _ = session := congrArg Prod.snd connects
        rfl
      rcases result with error | ⟨⟩
      · cases error <;>
          exact h.still hagrees hbooks rfl hdeliveries (.inr ⟨hlives, nofun⟩) ⟨_, hjournal, rfl⟩ rfl
      · exact h.still hagrees hbooks rfl hdeliveries (.inr ⟨hlives, nofun⟩) ⟨_, hjournal, rfl⟩ rfl
  | @begins choice reply session phase going reads =>
      rw [phase] at hreaders
      rcases startRead_turn (List.map_eq_nil_iff.1 hreaders) reads with
        ⟨progress, turn, rfl, -, hdeliveries⟩
      rw [session_afterRead] at hbooks
      exact h.afterRead hlives turn hdeliveries hagrees hbooks
  | @reads choice id reply session phase reads =>
      rw [phase] at hreaders
      rcases stepRead_turn h.agrees.distinct hreaders reads with
        ⟨read, progress, turn, rfl, -, hdeliveries⟩
      rw [session_afterRead] at hbooks
      exact h.afterRead hlives turn hdeliveries hagrees hbooks
  | @finishes result session phase endings tasks closes =>
      obtain ⟨rfl, rfl⟩ := Prod.mk.inj closes
      exact h.still hagrees hbooks rfl rfl (.inr ⟨hlives, nofun⟩) ⟨_, rfl, rfl⟩ rfl
  | @works id batch job span worker task starts =>
      rcases Prod.mk.inj starts with ⟨rfl, hstarts⟩
      rcases Prod.mk.inj hstarts with ⟨-, rfl⟩
      have hnodup : (c.tasks.map Task.id).Nodup := by
        rw [h.agrees.tasks hlives]
        exact (List.nodup_append.1 h.agrees.distinct.nodup).2.1
      exact h.still hagrees hbooks (handles_works hnodup task) rfl (.inl rfl) hstill rfl
  | @reports id due job settlement session task passed reports =>
      rcases Session.report_eq_some reports with
        ⟨delivery, hmem, hid, hsettle, -, -, hdeliveries⟩
      have hjournal := (Port.recorded_settle hsettle).2
      refine ⟨hagrees, hbooks.1, hbooks.2, fun _ => ?_, fun hdied => absurd hdied hlives, ?_⟩
      · rw [hdeliveries]
        have hfilter := congrArg (List.filter (·.1 ≠ id)) (h.tasks hlives)
        rw [List.filter_map, List.filter_map] at hfilter
        exact hfilter
      · have htells : c.journal.Tells (delivery.receipt.number, c.outcome job)
            (job.1, (W.finish job.2 c.session.ambient.mint c.worker.state).1) := by
          refine ⟨⟨delivery.receipt.value, ?_⟩, rfl⟩
          rw [← h.batch_eq hlives task hmem hid]
          exact h.filed delivery hmem
        rw [show journal _ = _ from hjournal, Journal.reports_append]
        have hold := h.log.imp fun _ _ htold => tells_append htold
          [.reported delivery.receipt.number (c.outcome job) settlement]
        exact List.rel_append hold (.cons (tells_append htells _) .nil)

/-- Whatever happens to a consumer, every task has its delivery, and every report tells what was
done. -/
theorem Reaches.kept (steady : W.Steady) {changes : (Recorded P → Recorded P) → Prop}
    (own : ∀ f, changes f → Recorded.Changes f) {source : P.State} {a : Ambient}
    {worker : W.State} {delay : Duration} {c : Consumer P.recorded W.recorded}
    (h : Reaches changes (recording source a worker delay) c) : c.Kept :=
  h.induct (kept_recording source a worker delay) fun _ _ hc hmove => hmove.kept steady own hc

/-! ## When all tasks have ended -/

/-- When all tasks have ended, every delivery is reported on once. -/
theorem Kept.reported {c : Consumer P.recorded W.recorded} (h : c.Kept) (lives : c.phase ≠ .died)
    (tasks : c.tasks = []) :
    (c.journal.reports.map Prod.fst).Perm (List.range c.journal.issued.length) := by
  have hnone : c.session.deliveries = [] := by
    have htasks := h.agrees.tasks lives
    rw [tasks] at htasks
    exact List.map_eq_nil_iff.1 htasks.symm
  have hbooked := h.booked
  rwa [Session.Booked, Session.numbers, hnone] at hbooked

/-- What is reported on was processed, and the report says what came of it. -/
theorem Kept.settled {c : Consumer P.recorded W.recorded} (h : c.Kept)
    (reported : (c.journal.reports.map Prod.fst).Perm (List.range c.journal.issued.length))
    {number : Nat} {batch : Batch} {receipt : P.Receipt}
    (issued : c.journal.issued[number]? = some (batch, receipt)) :
    ∃ (k : Nat) (outcome : Option Outcome), c.log[k]? = some (batch, outcome) ∧
      c.journal.reports[k]? = some (number, outcome.getD brokeOff) := by
  have hnumber : number ∈ c.journal.reports.map Prod.fst :=
    reported.mem_iff.2 (List.mem_range.2 (List.getElem?_eq_some_iff.1 issued).1)
  rcases List.mem_map.1 hnumber with ⟨report, hmem, rfl⟩
  rcases List.getElem?_of_mem hmem with ⟨k, hk⟩
  rcases List.getElem?_eq_some_iff.1 hk with ⟨hreports, hreport⟩
  have hlog : k < c.log.length := h.log.length_eq ▸ hreports
  have htells : c.journal.Tells report c.log[k] := hreport ▸ h.log.get hreports hlog
  rcases htells with ⟨⟨receipt', hissued⟩, houtcome⟩
  obtain ⟨hbatch, -⟩ := Prod.mk.inj (Option.some.inj (issued.symm.trans hissued))
  refine ⟨k, c.log[k].2, ?_, ?_⟩
  · rw [List.getElem?_eq_getElem hlog, hbatch]
  · rw [hk, ← houtcome]

end Consumer

end Redelivery
