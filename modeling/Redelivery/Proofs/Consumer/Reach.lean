import Redelivery.Consumer.Basic
import Redelivery.Proofs.Session.Reach

/-!
# What can happen to a consumer

A consumer goes from one state to the next as its loop or one of its tasks takes a step, as
its port changes by itself, or as something else happens around it: time passes, or shutdown
is requested.  Steps may come in any order, so what holds of all consumers that can be
reached holds whatever the order in which tasks end.

The loop and the tasks are opened once, in `deed_stepMain` and `deed_stepTask`.  What a move
does to the session of the consumer is at most one step of that session, after something was
added to what is shared.

Main definitions:

* `Consumer.Step`, `Consumer.Reaches`: the steps and what they lead to.
* `Consumer.Deed`, `Consumer.Move`: all that the loop or a task can do, and all that can
  happen.
* `Consumer.Agrees`: the consumer knows its read, and has a task for every delivery.

Main results:

* Theorem `Consumer.Step.move`: every step is a move.
* Theorem `Consumer.Move.session`, `Consumer.Reaches.session`: what a move does to the
  session, and what the session reaches.
* Theorem `Consumer.Move.agrees`: the consumer goes on to know its read and its deliveries.
-/

namespace Redelivery

/-- What a processor promises: it makes parts, and takes none back. -/
def Processor.Steady (W : Processor) : Prop :=
  ∀ job mint state, mint.contents ≤ (W.finish job mint state).2.1.contents ∧
    mint.groups ≤ (W.finish job mint state).2.1.groups

namespace Consumer

variable {P : Port} {W : Processor}

/-! ## Steps -/

/-- One thing that happens to a consumer. -/
inductive Step (changes : (P.State → P.State) → Prop) (c : Consumer P W) : Consumer P W → Prop
  | main {choice : Choice} {c' : Consumer P W} (h : c.stepMain choice = some c') : Step changes c c'
  | task {id : Nat} {c' : Consumer P W} (h : c.stepTask id = some c') : Step changes c c'
  | change {f : P.State → P.State} (own : changes f) :
      Step changes c { c with session := c.session.change f }
  /-- Time passes, scopes are opened and cancelled, others make parts and groups. -/
  | elapse {a : Ambient} (grows : c.session.ambient.Grows a) :
      Step changes c { c with session := { c.session with ambient := a } }

/-- What can be reached by steps. -/
inductive Reaches (changes : (P.State → P.State) → Prop) (start : Consumer P W) :
    Consumer P W → Prop
  | start : Reaches changes start start
  | step {c c' : Consumer P W} : Reaches changes start c → Step changes c c' →
      Reaches changes start c'

variable {changes : (P.State → P.State) → Prop}

/-- Requesting shutdown is a step. -/
theorem Step.requestShutdown (c : Consumer P W) : Step changes c c.requestShutdown :=
  .elapse (c.session.ambient.grows_cancel c.shutdown)

/-- The consumer after its loop has taken a step, if it can. -/
def goOn (c : Consumer P W) (choice : Choice) : Consumer P W := (c.stepMain choice).getD c

/-- The consumer after a task has taken a step, if it can. -/
def workOn (c : Consumer P W) (id : Nat) : Consumer P W := (c.stepTask id).getD c

theorem step_goOn (c : Consumer P W) (choice : Choice) :
    c.goOn choice = c ∨ Step changes c (c.goOn choice) := by
  unfold goOn
  cases hstep : c.stepMain choice with
  | none => exact .inl rfl
  | some c' => exact .inr (.main hstep)

theorem step_workOn (c : Consumer P W) (id : Nat) :
    c.workOn id = c ∨ Step changes c (c.workOn id) := by
  unfold workOn
  cases hstep : c.stepTask id with
  | none => exact .inl rfl
  | some c' => exact .inr (.task hstep)

/-- The consumer after its loop has taken a step, or the task of some delivery. -/
def act (choice : Choice) (c : Consumer P W) : Option Nat → Consumer P W
  | none => c.goOn choice
  | some id => c.workOn id

/-- What the loop or a task does is a step, or nothing. -/
theorem step_act (choice : Choice) (c : Consumer P W) (turn : Option Nat) :
    c.act choice turn = c ∨ Step changes c (c.act choice turn) := by
  cases turn with
  | none => exact c.step_goOn choice
  | some id => exact c.step_workOn id

/-- What the loop and the tasks do, one after the other, takes a consumer to what it reaches. -/
theorem Reaches.acts {start c : Consumer P W} (h : Reaches changes start c) (choice : Choice)
    (run : List (Option Nat)) : Reaches changes start (run.foldl (act choice) c) := by
  induction run generalizing c with
  | nil => exact h
  | cons turn run ih =>
      apply ih
      have hturn : c.act choice turn = c ∨ Step changes c (c.act choice turn) :=
        step_act choice c turn
      rcases hturn with hsame | hstep
      · rw [hsame]
        exact h
      · exact h.step hstep

/-! ## What a step does -/

/-- The consumer after its port has been connected. -/
def afterConnect (c : Consumer P W) (session : Session P) :
    Except ReadError Unit → Consumer P W
  | .ok () => { c with session, phase := .ready }
  | .error .closed => { c with session, phase := .joining }
  | .error _ => { c with session }.pause

/-- The consumer after its read has taken a turn. -/
def afterRead (c : Consumer P W) (id : Nat) (session : Session P) : Option Reply → Consumer P W
  | none => { c with session, phase := .reading id }
  | some reply => { c with session }.take id reply

/-- The loop is about to connect or to read, or pauses before it connects. -/
def Phase.between : Phase → Prop
  | .connecting | .pausing _ | .ready => True
  | _ => False

/-- The session after processing has made parts. -/
def processed (c : Consumer P W) (job : W.Job) : Session P :=
  { c.session with ambient :=
    { c.session.ambient with mint := (W.finish job c.session.ambient.mint c.worker).2.1 } }

/-- The outcome of processing, as it is reported. -/
def outcome (c : Consumer P W) (job : W.Job) : Outcome :=
  (W.finish job c.session.ambient.mint c.worker).1.getD brokeOff

/-- All that the loop or a task of a consumer can do in a step. -/
inductive Deed (c : Consumer P W) : Consumer P W → Prop
  /-- Shutdown was requested, and nothing more is read. -/
  | stops (between : c.phase.between) (stopping : c.stopping = true) :
      Deed c { c with phase := .joining }
  | connects {result : Except ReadError Unit} {session : Session P} (phase : c.phase = .connecting)
      (going : c.stopping = false) (connects : c.session.connect c.shutdown = (result, session)) :
      Deed c (c.afterConnect session result)
  /-- The pause is over. -/
  | resumes {due : Nat} (phase : c.phase = .pausing due) : Deed c { c with phase := .connecting }
  | begins {choice : Choice} {reply : Option Reply} {session : Session P} (phase : c.phase = .ready)
      (going : c.stopping = false)
      (reads : c.session.startRead choice c.shutdown = (reply, session)) :
      Deed c (c.afterRead c.session.next session reply)
  | reads {choice : Choice} {id : Nat} {reply : Option Reply} {session : Session P}
      (phase : c.phase = .reading id)
      (reads : c.session.stepRead choice id = some (reply, session)) :
      Deed c (c.afterRead id session reply)
  | tallies (phase : c.phase = .joining) : Deed c c.tally
  | finishes {result : Except ReadError Unit} {session : Session P} (phase : c.phase = .joining)
      (endings : c.endings = []) (tasks : c.tasks = [])
      (closes : (c.session.scope false).2.close (c.session.scope false).1 = (result, session)) :
      Deed c { c with session, phase := .finished }
  /-- A task begins to work. -/
  | works {id : Nat} {batch : Batch} {job : W.Job} {span : Duration} {worker : W.State}
      (task : ⟨id, .spawned batch⟩ ∈ c.tasks)
      (starts : W.start c.session.ambient.now batch c.worker = (job, span, worker)) :
      Deed c { c with
        worker
        tasks := c.tasks.map fun t =>
          if t.id = id then ⟨id, .working job (c.session.ambient.now + span.clockMillis)⟩ else t }
  /-- A task has processed its batch, and reports. -/
  | reports {id due : Nat} {job : W.Job} {settlement : Settlement} {session : Session P}
      (task : ⟨id, .working job due⟩ ∈ c.tasks) (passed : due ≤ c.session.ambient.now)
      (reports : (c.processed job).report id (c.outcome job) = some (settlement, session)) :
      Deed c { c with
        session
        worker := (W.finish job c.session.ambient.mint c.worker).2.2
        tasks := c.tasks.filter (·.id ≠ id)
        endings := c.endings ++ [ending (c.outcome job) settlement] }

/-- All that can happen to a consumer in a step. -/
inductive Move (changes : (P.State → P.State) → Prop) (c : Consumer P W) : Consumer P W → Prop
  /-- The loop or a task takes a step. -/
  | acts {c' : Consumer P W} (deed : Deed c c') : Move changes c c'
  | changes {f : P.State → P.State} (own : changes f) :
      Move changes c { c with session := c.session.change f }
  | elapses {a : Ambient} (grows : c.session.ambient.Grows a) :
      Move changes c { c with session := { c.session with ambient := a } }

/-- A step of the loop is one of these. -/
theorem deed_stepMain {c c' : Consumer P W} {choice : Choice} (h : c.stepMain choice = some c') :
    Deed c c' := by
  unfold stepMain at h
  split at h
  next hphase =>
    split at h
    next hstopping =>
      obtain rfl := Option.some.inj h
      exact .stops (by simp [hphase, Phase.between]) hstopping
    next hgoing =>
      rcases hconnect : c.session.connect c.shutdown with ⟨result, session⟩
      have hdeed : Deed c _ := .connects hphase (by simpa using hgoing) hconnect
      simp only [hconnect] at h
      split at h <;> obtain rfl := Option.some.inj h
      · exact hdeed
      · exact hdeed
      next error hopen =>
        cases error with
        | closed => exact absurd rfl hopen
        | connection | timeout | cancelled => exact hdeed
  next due hphase =>
    rcases Option.map_eq_some_iff.1 h with ⟨cancelled, hwaited, rfl⟩
    cases cancelled with
    | false => exact .resumes hphase
    | true =>
        refine .stops (by simp [hphase, Phase.between]) ?_
        unfold Choice.waited at hwaited
        split at hwaited
        next hcancelled => exact (Bool.and_eq_true_iff.1 hcancelled).1
        next => split at hwaited <;> cases hwaited
  next hphase =>
    split at h
    next hstopping =>
      obtain rfl := Option.some.inj h
      exact .stops (by simp [hphase, Phase.between]) hstopping
    next hgoing =>
      rcases hread : c.session.startRead choice c.shutdown with ⟨reply, session⟩
      have hdeed : Deed c _ := .begins hphase (by simpa using hgoing) hread
      simp only [hread] at h
      split at h <;> obtain rfl := Option.some.inj h
      · exact hdeed
      next reply =>
        rcases reply with batch | error | reason
        · exact hdeed
        · cases error <;> exact hdeed
        · exact hdeed
  next id hphase =>
    rcases Option.map_eq_some_iff.1 h with ⟨⟨reply, session⟩, hread, rfl⟩
    have hdeed : Deed c _ := .reads hphase hread
    rcases reply with _ | reply
    · simpa [afterRead, hphase] using hdeed
    · exact hdeed
  next hphase =>
    split at h
    next =>
      obtain rfl := Option.some.inj h
      exact .tallies hphase
    next hendings =>
      split at h
      next htasks =>
        obtain rfl := Option.some.inj h
        exact .finishes hphase (by simpa using hendings) (by simpa using htasks) rfl
      next => cases h
  next => cases h
  next => cases h

/-- A step of a task is one of these. -/
theorem deed_stepTask {c c' : Consumer P W} {id : Nat} (h : c.stepTask id = some c') :
    Deed c c' := by
  simp only [stepTask, Option.bind_eq_bind, Option.bind_eq_some_iff] at h
  rcases h with ⟨⟨own, stage⟩, hfind, h⟩
  have hmem := List.mem_of_find?_eq_some hfind
  obtain rfl : own = id := by simpa using List.find?_some hfind
  cases stage with
  | spawned batch =>
      obtain rfl := Option.some.inj h
      exact .works hmem rfl
  | working job due =>
      simp only at h
      split at h
      next => cases h
      next hpassed =>
        rcases Option.bind_eq_some_iff.1 h with ⟨⟨settlement, session⟩, hreport, h⟩
        obtain rfl := Option.some.inj h
        exact .reports hmem (Nat.le_of_not_lt hpassed) hreport

/-- Every step is a move. -/
theorem Step.move {c c' : Consumer P W} (h : Step changes c c') : Move changes c c' := by
  cases h with
  | main h => exact .acts (deed_stepMain h)
  | task h => exact .acts (deed_stepTask h)
  | change own => exact .changes own
  | elapse grows => exact .elapses grows

/-- What holds at the start and is kept by every move holds of all that is reached. -/
theorem Reaches.induct {start c : Consumer P W} {motive : Consumer P W → Prop}
    (h : Reaches changes start c) (base : motive start)
    (move : ∀ c c', motive c → Move changes c c' → motive c') : motive c := by
  induction h with
  | start => exact base
  | step _ hstep ih => exact move _ _ ih hstep.move

/-! ## The session -/

@[simp]
theorem session_tally (c : Consumer P W) : c.tally.session = c.session := rfl

@[simp]
theorem session_take (c : Consumer P W) (id : Nat) (reply : Reply) :
    (c.take id reply).session = c.session := by
  rcases reply with batch | error | reason
  · rfl
  · cases error <;> rfl
  · rfl

@[simp]
theorem session_afterRead (c : Consumer P W) (id : Nat) (session : Session P)
    (reply : Option Reply) : (c.afterRead id session reply).session = session := by
  cases reply with
  | none => rfl
  | some reply => exact session_take _ _ _

@[simp]
theorem session_afterConnect (c : Consumer P W) (session : Session P)
    (result : Except ReadError Unit) : (c.afterConnect session result).session = session := by
  rcases result with error | ⟨⟩
  · cases error <;> rfl
  · rfl

@[simp]
theorem shutdown_take (c : Consumer P W) (id : Nat) (reply : Reply) :
    (c.take id reply).shutdown = c.shutdown := by
  rcases reply with batch | error | reason
  · rfl
  · cases error <;> rfl
  · rfl

/-- A consumer keeps its scope. -/
theorem Move.shutdown_eq {c c' : Consumer P W} (move : Move changes c c') :
    c'.shutdown = c.shutdown := by
  cases move with
  | changes | elapses => rfl
  | acts deed =>
  cases deed with
  | stops | resumes | tallies | finishes | works | reports => rfl
  | @connects result =>
      rcases result with error | ⟨⟩
      · cases error <;> rfl
      · rfl
  | @begins choice reply | @reads choice id reply =>
      cases reply with
      | none => rfl
      | some reply => exact shutdown_take _ _ _

/-- Processing adds to what is shared. -/
theorem adds_processed (steady : W.Steady) (c : Consumer P W) (job : W.Job) :
    c.session.ambient.Adds (c.processed job).ambient := by
  rcases steady job c.session.ambient.mint c.worker with ⟨hcontents, hgroups⟩
  exact ⟨⟨Nat.le_refl _, .refl _, hcontents, hgroups⟩, fun _ => rfl⟩

/-- Opening a scope adds to what is shared. -/
theorem adds_scope (s : Session P) : s.ambient.Adds (s.scope false).2.ambient :=
  ⟨s.ambient.grows_freshScope, fun id => s.ambient.scopes.flag_fresh id⟩

/-- What a move does to the session: nothing, or a step after something was added to what is
shared. -/
theorem Move.session {D : Discipline P} (steady : W.Steady) {c c' : Consumer P W}
    (move : Move D.changes c c')
    (enters : c.phase = .connecting ∨ c.phase = .ready → c.stopping = false →
      D.enters c.session c.shutdown) :
    c'.session = c.session ∨ ∃ a, c.session.ambient.Adds a ∧
      Session.Step D { c.session with ambient := a } c'.session := by
  cases move with
  | changes own => exact .inr ⟨_, .refl _, .change own⟩
  | elapses grows => exact .inr ⟨_, .refl _, .elapse grows⟩
  | acts deed =>
  cases deed with
  | stops | resumes | tallies | works => exact .inl rfl
  | @connects result session phase going connects =>
      refine .inr ⟨_, .refl _, ?_⟩
      rw [session_afterConnect]
      have hstep : Session.Step D c.session _ := .connect (enters (.inl phase) going)
      rwa [connects] at hstep
  | @begins choice reply session phase going reads =>
      refine .inr ⟨_, .refl _, ?_⟩
      rw [session_afterRead]
      have hstep : Session.Step D c.session _ := .startRead choice (enters (.inr phase) going)
      rwa [reads] at hstep
  | reads phase reads =>
      refine .inr ⟨_, .refl _, ?_⟩
      rw [session_afterRead]
      exact .stepRead reads
  | @finishes result session phase endings tasks closes =>
      refine .inr ⟨_, adds_scope c.session, ?_⟩
      have hstep : Session.Step D (c.session.scope false).2 _ := .close (c.session.scope false).1
      rwa [closes] at hstep
  | reports task passed reports => exact .inr ⟨_, adds_processed steady c _, .report reports⟩

/-- Whatever a consumer reaches, its session has reached, too. -/
theorem Reaches.session (processes : W.Steady) {D : Discipline P}
    (enters : ∀ s caller, D.enters s caller) {s : Session P} {worker : W.State} {delay : Duration}
    {c : Consumer P W} (h : Reaches D.changes (.new s worker delay) c) :
    Session.Reaches D s c.session := by
  refine h.induct (motive := fun c => Session.Reaches D s c.session)
    (Session.Reaches.start.step (.scope _ false)) fun c c' hc hmove => ?_
  rcases hmove.session processes (fun _ _ => enters _ _) with hsame | ⟨b, hadds, hstep⟩
  · exact hsame ▸ hc
  · exact (hc.step (.elapse hadds.grows)).step hstep

/-! ## The consumer and its session -/

/-- The reads that a consumer in some phase has begun. -/
def Phase.reads : Phase → List Nat
  | .reading id => [id]
  | _ => []

/-- The consumer reads under the number of the only read, and has a task for every delivery.
In the end all tasks have ended and are counted. -/
structure Agrees (c : Consumer P W) : Prop where
  distinct : c.session.Distinct
  readers : c.session.readers.map Reader.id = c.phase.reads
  tasks : c.phase ≠ .died → c.tasks.map Task.id = c.session.deliveries.map Delivery.id
  finished : c.phase = .finished → c.tasks = [] ∧ c.endings = []

theorem Phase.reads_eq_nil {phase : Phase} (h : phase.between) : phase.reads = [] := by
  cases phase with
  | connecting | pausing | ready => rfl
  | reading | joining | finished | died => cases h

/-- A read that begins takes the only turn there is. -/
theorem startRead_turn {s s' : Session P} (hnone : s.readers = []) {choice : Choice}
    {caller : Scope} {reply : Option Reply} (h : s.startRead choice caller = (reply, s')) :
    ∃ progress, P.turn choice (.outside caller) s.ambient s.state =
        some (progress, s'.ambient, s'.state) ∧
      reply = progress.reply ∧ s'.readers = Reader.after s.next progress ∧
        s'.deliveries = s.deliveries ++ Delivery.after s.next progress := by
  rcases hstart : P.start choice caller s.ambient s.state with ⟨progress, a, state⟩
  rw [Session.startRead_eq hstart] at h
  rcases Prod.mk.inj h with ⟨rfl, rfl⟩
  exact ⟨progress, congrArg some hstart, rfl, by simp [hnone], rfl⟩

/-- A read that goes on takes the only turn there is. -/
theorem stepRead_turn {s s' : Session P} (hs : s.Distinct) {id : Nat}
    (hone : s.readers.map Reader.id = [id]) {choice : Choice} {reply : Option Reply}
    (h : s.stepRead choice id = some (reply, s')) :
    ∃ read progress, P.turn choice (.inside read) s.ambient s.state =
        some (progress, s'.ambient, s'.state) ∧
      reply = progress.reply ∧ s'.readers = Reader.after id progress ∧
        s'.deliveries = s.deliveries ++ Delivery.after id progress := by
  rcases List.map_eq_singleton_iff.1 hone with ⟨⟨own, read⟩, hreaders, rfl⟩
  rcases Session.stepRead_of_only hs hreaders h with ⟨progress, a, state, hstep, rfl, rfl⟩
  exact ⟨read, progress, hstep, rfl, rfl, rfl⟩

/-- After a turn of its read the consumer knows whether it reads on, and has a task for what
was delivered. -/
theorem agrees_afterRead {c : Consumer P W} {session : Session P} {id : Nat}
    {progress : Progress P.Read P.Receipt} (distinct : session.Distinct)
    (readers : session.readers = Reader.after id progress)
    (deliveries : session.deliveries = c.session.deliveries ++ Delivery.after id progress)
    (tasks : c.tasks.map Task.id = c.session.deliveries.map Delivery.id) :
    (c.afterRead id session progress.reply).Agrees := by
  refine ⟨by rwa [session_afterRead], ?_, ?_, ?_⟩
  · rw [session_afterRead, readers]
    cases progress with
    | going read => rfl
    | ended answer =>
        cases answer with
        | delivered batch receipt | died reason => rfl
        | failed error => cases error <;> rfl
  · intro hlives
    rw [session_afterRead, deliveries, List.map_append, ← tasks]
    cases progress with
    | going read => simp [Progress.reply, afterRead, Delivery.after]
    | ended answer =>
        cases answer with
        | delivered batch receipt =>
            simp [Progress.reply, Answer.reply, afterRead, take, tally, Delivery.after]
        | died reason => exact absurd rfl hlives
        | failed error =>
            cases error <;>
              simp [Progress.reply, Answer.reply, afterRead, take, pause, Delivery.after]
  · intro hfinished
    cases progress with
    | going read => cases hfinished
    | ended answer =>
        cases answer with
        | delivered batch receipt | died reason => cases hfinished
        | failed error => cases error <;> cases hfinished

/-- The session of a consumer keeps numbers of its own. -/
theorem Move.distinct (steady : W.Steady) {c c' : Consumer P W} (move : Move changes c c')
    (hdistinct : c.session.Distinct) : c'.session.Distinct := by
  have hsession := move.session (D := ⟨fun _ _ => True, changes⟩) steady fun _ _ => trivial
  rcases hsession with hsame | ⟨a, -, hstep⟩
  · exact hsame ▸ hdistinct
  · have hadded : Session.Distinct { c.session with ambient := a } :=
      ⟨hdistinct.nodup, hdistinct.lt_next⟩
    exact (hstep.move hadded).distinct hadded

/-- Around a steady port nothing is taken back. -/
theorem Move.grows (steady : P.Steady) (processes : W.Steady) {c c' : Consumer P W}
    (move : Move changes c c') (hdistinct : c.session.Distinct) :
    c.session.ambient.Grows c'.session.ambient := by
  have hsession := move.session (D := ⟨fun _ _ => True, changes⟩) processes fun _ _ => trivial
  rcases hsession with hsame | ⟨a, hadds, hstep⟩
  · exact hsame ▸ .refl _
  · have hadded : Session.Distinct { c.session with ambient := a } :=
      ⟨hdistinct.nodup, hdistinct.lt_next⟩
    exact hadds.grows.trans ((hstep.move hadded).grows steady)

/-- Shutdown is not taken back. -/
theorem Move.stopping (steady : P.Steady) (processes : W.Steady) {c c' : Consumer P W}
    (move : Move changes c c') (hdistinct : c.session.Distinct) (hstopping : c.stopping = true) :
    c'.stopping = true := by
  have hcancelled : c.session.ambient.scopes.IsCancelled c.shutdown := by
    simpa [Consumer.stopping] using hstopping
  have hgrows := move.grows steady processes hdistinct
  simpa [Consumer.stopping, move.shutdown_eq] using hcancelled.mono hgrows.scopes

/-- A move leaves the consumer knowing its read and its deliveries. -/
theorem Move.agrees (steady : W.Steady) {c c' : Consumer P W} (move : Move changes c c')
    (h : c.Agrees) : c'.Agrees := by
  have hdistinct := move.distinct steady h.distinct
  have hreaders := h.readers
  cases move with
  | changes | elapses => exact ⟨hdistinct, hreaders, h.tasks, h.finished⟩
  | acts deed =>
  cases deed with
  | stops between stopping =>
      have hnone := Phase.reads_eq_nil between
      refine ⟨hdistinct, hreaders.trans hnone, fun _ => h.tasks ?_, nofun⟩
      rintro hdied
      simp [hdied, Phase.between] at between
  | @connects result session phase going connects =>
      have hsession : session.readers = c.session.readers ∧
          session.deliveries = c.session.deliveries := by
        obtain rfl : _ = session := congrArg Prod.snd connects
        exact ⟨rfl, rfl⟩
      rw [phase] at hreaders
      have htasks := h.tasks (by simp [phase])
      refine ⟨hdistinct, ?_, fun _ => ?_, fun hfinished => ?_⟩
      · rw [session_afterConnect, hsession.1, hreaders]
        rcases result with error | ⟨⟩
        · cases error <;> rfl
        · rfl
      · rw [session_afterConnect, hsession.2, ← htasks]
        rcases result with error | ⟨⟩
        · cases error <;> rfl
        · rfl
      · rcases result with error | ⟨⟩
        · cases error <;> cases hfinished
        · cases hfinished
  | resumes phase =>
      rw [phase] at hreaders
      exact ⟨hdistinct, hreaders, fun _ => h.tasks (by simp [phase]), nofun⟩
  | begins phase going reads =>
      rw [phase] at hreaders
      rcases startRead_turn (List.map_eq_nil_iff.1 hreaders) reads with
        ⟨progress, -, rfl, hreaders', hdeliveries⟩
      rw [session_afterRead] at hdistinct
      exact agrees_afterRead hdistinct hreaders' hdeliveries (h.tasks (by simp [phase]))
  | reads phase reads =>
      rw [phase] at hreaders
      rcases stepRead_turn h.distinct hreaders reads with
        ⟨read, progress, -, rfl, hreaders', hdeliveries⟩
      rw [session_afterRead] at hdistinct
      exact agrees_afterRead hdistinct hreaders' hdeliveries (h.tasks (by simp [phase]))
  | tallies phase =>
      refine ⟨hdistinct, hreaders, h.tasks, fun hfinished => ?_⟩
      exact absurd (phase.symm.trans hfinished) (by simp)
  | @finishes result session phase endings tasks closes =>
      have hsession : session.readers = c.session.readers ∧
          session.deliveries = c.session.deliveries := by
        obtain rfl : _ = session := congrArg Prod.snd closes
        exact ⟨rfl, rfl⟩
      rw [phase] at hreaders
      refine ⟨hdistinct, ?_, fun _ => ?_, fun _ => ⟨tasks, endings⟩⟩
      · exact (congrArg _ hsession.1).trans hreaders
      · exact (h.tasks (by simp [phase])).trans (congrArg _ hsession.2.symm)
  | @works id batch job span worker task starts =>
      refine ⟨hdistinct, hreaders, fun hlives => ?_, fun hfinished => ?_⟩
      · rw [← h.tasks hlives, List.map_map]
        refine List.map_congr_left fun t _ => ?_
        by_cases hid : t.id = id
        · simp [hid]
        · simp [hid]
      · rw [(h.finished hfinished).1] at task
        cases task
  | @reports id due job settlement session task passed reports =>
      rcases Session.report_eq_some reports with ⟨-, -, -, -, hsame, -, hdeliveries⟩
      refine ⟨hdistinct, (congrArg _ hsame).trans hreaders, fun hlives => ?_, fun hfinished => ?_⟩
      · rw [hdeliveries]
        have hfilter := congrArg (List.filter (· ≠ id)) (h.tasks hlives)
        rw [List.filter_map, List.filter_map] at hfilter
        exact hfilter
      · rw [(h.finished hfinished).1] at task
        cases task

end Consumer

end Redelivery
