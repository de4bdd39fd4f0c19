import Redelivery.Proofs.Consumer.Reach
import Redelivery.Proofs.Layer.Order

/-!
# The consumer of a watched layer

A consumer is one reader: it connects and reads in the scope by which its shutdown is
requested, one after the other.  So whatever holds of all sessions with one reader holds of
the session of a consumer.

Main definitions:

* `Watch.only`: the discipline of one reader who always uses the same scope.
* `Consumer.watching`: a consumer of a watched layer that nobody has used.
* `Consumer.Drives`: the session of a consumer is one that a single reader has reached.

Main results:

* Theorem `Consumer.Reaches.drives`: so it is whatever happens to the consumer.
-/

namespace Redelivery

namespace Watch

variable {settings : Settings} {P : Port}

/-- One read or connect at a time, all in the same scope; the source may change in any way. -/
def only (settings : Settings) (P : Port) (caller : Scope) :
    Discipline (Layer.watched settings P) where
  enters s scope := (alone settings P).enters s scope ∧ scope = caller
  changes := ChangesSource

theorem enters_of_only {caller : Scope} (s : Watch settings P) (scope : Scope)
    (h : (only settings P caller).enters s scope) : (alone settings P).enters s scope :=
  h.1

/-- One reader who always uses the same scope is one reader. -/
theorem alone_of_only {caller : Scope} {start s : Watch settings P}
    (h : Session.Reaches (only settings P caller) start s) :
    Session.Reaches (alone settings P) start s :=
  h.mono enters_of_only (fun _ hf => hf)

/-- All reads were begun in that scope. -/
theorem callers_of_only {caller : Scope} {source : P.State} {a : Ambient} {s : Watch settings P}
    (h : Session.Reaches (only settings P caller) (start settings source a) s) :
    ∀ scope ∈ s.journal.callers, scope = caller := by
  refine h.induct (motive := fun s => ∀ scope ∈ (journal s).callers, scope = caller)
    (Session.distinct_new _ _) (fun _ h => absurd h List.not_mem_nil) ?_
  intro s s' hs hmove scope hscope
  rcases journal_move (fun _ hf => hf) hmove with ⟨more, hmore, henters⟩
  rw [hmore, Journal.callers_append, List.mem_append] at hscope
  rcases hscope with hold | hnew
  · exact hs scope hold
  · exact (henters scope hnew).2

end Watch

namespace Consumer

variable {settings : Settings} {P : Port} {W : Processor}

/-- A consumer that is about to connect a watched layer that nobody has used. -/
def watching (settings : Settings) (source : P.State) (a : Ambient) (worker : W.State)
    (reconnectDelay : Duration) : Consumer (Layer.watched settings P) W :=
  .new (Watch.start settings source a) worker reconnectDelay

/-- The consumer is the only reader of a layer, and uses no other scope than its own. -/
structure Drives (source : P.State) (a : Ambient) (c : Consumer (Layer.watched settings P) W) :
    Prop where
  agrees : c.Agrees
  reaches : Session.Reaches (Watch.only settings P c.shutdown) (Watch.start settings source a)
    c.session
  own : Watch.OwnScope c.session c.shutdown

theorem drives_watching (source : P.State) (a : Ambient) (worker : W.State)
    (reconnectDelay : Duration) :
    (watching settings source a worker reconnectDelay).Drives source a where
  agrees := ⟨⟨by simp [watching, new, Session.scope, Watch.start, Session.new],
    by simp [watching, new, Session.scope, Watch.start, Session.new]⟩, rfl, fun _ => rfl, nofun⟩
  reaches := Session.Reaches.start.step (.scope _ false)
  own id hid := by
    obtain rfl : id = a.freshScope.2.scopes.flags.size := List.mem_singleton.1 hid
    simp [watching, new, Session.scope, Watch.start, Session.new, Layer.new, Backlog.empty,
      Ambient.freshScope, Scopes.fresh, Watch.layer]

/-- Whenever it connects or reads, the consumer may do so. -/
theorem Drives.enters {source : P.State} {a : Ambient}
    {c : Consumer (Layer.watched settings P) W} (h : c.Drives source a)
    (hphase : c.phase = .connecting ∨ c.phase = .ready) (_ : c.stopping = false) :
    (Watch.only settings P c.shutdown).enters c.session c.shutdown := by
  have hreads : c.phase.reads = [] := by
    rcases hphase with hphase | hphase <;> rw [hphase] <;> rfl
  exact ⟨⟨List.map_eq_nil_iff.1 (h.agrees.readers.trans hreads), h.own⟩, rfl⟩

/-- Whatever happens, the consumer goes on to be the only reader. -/
theorem Move.drives (steady : P.Steady) (processes : W.Steady) {source : P.State} {a : Ambient}
    {c c' : Consumer (Layer.watched settings P) W} (move : Move Watch.ChangesSource c c')
    (h : c.Drives source a) : c'.Drives source a := by
  have hshutdown := move.shutdown_eq
  refine ⟨move.agrees processes h.agrees, ?_, ?_⟩
  · rw [hshutdown]
    rcases move.session processes h.enters with hsame | ⟨b, hadds, hstep⟩
    · exact hsame ▸ h.reaches
    · exact (h.reaches.step (.elapse hadds.grows)).step hstep
  · rw [hshutdown]
    rcases move.session processes h.enters with hsame | ⟨b, hadds, hstep⟩
    · exact hsame ▸ h.own
    · have hadded : Watch.OwnScope { c.session with ambient := b } c.shutdown := by
        intro id hid
        rcases h.own id hid with ⟨hlt, hne⟩
        exact ⟨Nat.lt_of_lt_of_le hlt hadds.grows.scopes.size_le, hne⟩
      have hdistinct : Session.Distinct { c.session with ambient := b } :=
        ⟨h.agrees.distinct.nodup, h.agrees.distinct.lt_next⟩
      exact Watch.ownScope_move steady (fun _ hf => hf) (hstep.move hdistinct) hadded

/-- Whatever happens to it, a consumer is the only reader of its layer. -/
theorem Reaches.drives (steady : P.Steady) (processes : W.Steady) {source : P.State} {a : Ambient}
    {worker : W.State} {delay : Duration} {c : Consumer (Layer.watched settings P) W}
    (h : Reaches Watch.ChangesSource (watching settings source a worker delay) c) :
    c.Drives source a :=
  h.induct (drives_watching source a worker delay) fun _ _ hc hmove =>
    hmove.drives steady processes hc

/-! ## Runs

A run is given by what happens, one thing after the other: the loop takes a step, or a task
does, or the source changes.  Processing fails at first and succeeds from then on. -/

namespace Tour

/-- Processing that fails the first time. -/
def reluctant : Processor where
  State := Bool
  Job := Unit
  start _ _ tried := ((), .zero, tried)
  finish _ mint tried :=
    (some (if tried then .processed else .failed (.whole "not yet")), mint, true)

theorem steady_reluctant : reluctant.Steady := fun _ _ _ => ⟨Nat.le_refl _, Nat.le_refl _⟩

/-- One thing that happens in a run. -/
inductive Happening (P : Port) where
  | loop
  | task (id : Nat)
  | stop
  | change (f : P.State → P.State)

/-- What becomes of a consumer. -/
def happen (c : Consumer (Layer.watched settings P) W) :
    Happening P → Consumer (Layer.watched settings P) W
  | .loop => c.goOn Watch.Tour.choice
  | .task id => c.workOn id
  | .stop => c.requestShutdown
  | .change f => { c with session := c.session.change (Watch.changeSource f) }

variable {changes : ((Layer.watched settings P).State → (Layer.watched settings P).State) → Prop}

/-- What happens is a step, or nothing. -/
theorem step_happen (c : Consumer (Layer.watched settings P) W) (happens : Happening P)
    (own : ∀ f, happens = .change f → changes (Watch.changeSource f)) :
    happen c happens = c ∨ Step changes c (happen c happens) := by
  cases happens with
  | loop => exact c.step_goOn _
  | task id => exact c.step_workOn id
  | stop => exact .inr (.requestShutdown c)
  | change f => exact .inr (.change (own f rfl))

/-- A run takes the consumer to what it reaches. -/
theorem reaches_run {start c : Consumer (Layer.watched settings P) W}
    (h : Reaches changes start c) (run : List (Happening P))
    (own : ∀ f, .change f ∈ run → changes (Watch.changeSource f)) :
    Reaches changes start (run.foldl happen c) := by
  induction run generalizing c with
  | nil => exact h
  | cons happens run ih =>
      refine ih ?_ fun f hf => own f (List.mem_cons_of_mem _ hf)
      rcases step_happen c happens fun f hf => own f (hf ▸ List.mem_cons_self) with hsame | hstep
      · exact hsame.symm ▸ h
      · exact h.step hstep

/-- The source has one batch, and may get more. -/
def opened : Memory := Memory.empty.push Watch.Tour.batch

end Tour

end Consumer

end Redelivery
