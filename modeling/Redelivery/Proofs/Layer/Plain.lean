import Redelivery.Proofs.Layer.Watched
import Redelivery.Proofs.Port.Hom

/-!
# Watching changes nothing

A layer never looks at the receipts of the port inside, nor at its state, but through the
port's own operations.  So a map between two ports is one between the layers around them,
and a layer that is watched behaves like one that is not: whatever anybody can bring about
with the layer alone is what remains of a watched session when its journals are forgotten.

Main definitions:

* `Layer.hom`: a map between ports as one between layers.
* `Watch.plain`: the session without its journals.

Main results:

* Theorem `Watch.exists_watch`: every session of a layer can be watched.
-/

namespace Redelivery

/-- The entry with another receipt. -/
def Entry.map {ρ ρ' : Type} (f : ρ → ρ') (entry : Entry ρ) : Entry ρ' :=
  ⟨entry.batch, f entry.receipt, entry.attempts, entry.backoff, entry.lastFailed⟩

/-- The receipt of a layer around another port. -/
def Held.map {ρ ρ' : Type} (f : ρ → ρ') (held : Held ρ) : Held ρ' :=
  ⟨held.entry.map f, held.group⟩

/-- The backlog with other receipts. -/
def Backlog.map {ρ ρ' : Type} (f : ρ → ρ') (backlog : Backlog ρ) : Backlog ρ' :=
  ⟨backlog.entries.map (Entry.map f), backlog.interrupt⟩

/-- What is delivered next after a failure does not depend on the receipt. -/
theorem Held.map_afterFailure {ρ ρ' : Type} (f : ρ → ρ') (held : Held ρ) (failure : Failure) :
    (held.map f).afterFailure failure = (held.afterFailure failure).map f := by
  cases hgroup : held.group with
  | none => simp [Held.map, Held.afterFailure, hgroup]
  | some group => simp [Held.map, Held.afterFailure, Entry.map, hgroup]

namespace Layer

variable {P Q : Port} (f : P.Hom Q)

/-- A read through a layer around another port. -/
def Reading.map : Reading P → Reading Q
  | .armed scope => .armed scope
  | .asking scope read => .asking scope (f.read read)
  | .pacing caller scope entry due => .pacing caller scope (entry.map f.receipt) due
  | .draining scope due => .draining scope due

/-- The layer around another port. -/
def map (layer : Layer P) : Layer Q :=
  ⟨layer.backlog.map f.receipt, layer.pending, layer.inputClosed, f.state layer.inner⟩

/-- What a step comes to, around another port. -/
abbrev mapGoing : Going P × Ambient × Layer P → Going Q × Ambient × Layer Q :=
  Prod.map (Progress.map (Reading.map f) (Held.map f.receipt)) (Prod.map id (map f))

theorem map_deliver (scope : Scope) (entry : Entry P.Receipt) (a : Ambient) (layer : Layer P) :
    deliver scope (entry.map f.receipt) a (layer.map f) =
      mapGoing f (deliver scope entry a layer) := by
  by_cases hlength : entry.batch.length = 1
  · simp [deliver, finish, hlength, Entry.map, Progress.map, Answer.map, Held.map]
  · simp [deliver, finish, hlength, Entry.map, Progress.map, Answer.map, Held.map]

theorem map_redeliver (settings : Settings) (choice : Choice) (caller scope : Scope)
    (entry : Entry P.Receipt) (a : Ambient) (layer : Layer P) :
    redeliver settings choice caller scope (entry.map f.receipt) a (layer.map f) =
      mapGoing f (redeliver settings choice caller scope entry a layer) := by
  by_cases hlate : settings.backoffAfter < entry.attempts + 1
  · have hlate' : settings.backoffAfter < (entry.map f.receipt).attempts + 1 := hlate
    simp only [redeliver, if_pos hlate, if_pos hlate']
    have hnext : (entry.map f.receipt).backoff.next choice.pick = entry.backoff.next choice.pick :=
      rfl
    rw [hnext]
    cases entry.backoff.next choice.pick with
    | error reason => rfl
    | ok result =>
        rcases result with ⟨delay, backoff⟩
        by_cases hzero : delay.isZero
        · simp only [if_pos hzero]
          exact map_deliver f scope { entry with attempts := entry.attempts + 1, backoff } a layer
        · simp only [if_neg hzero]
          rfl
  · have hlate' : ¬settings.backoffAfter < (entry.map f.receipt).attempts + 1 := hlate
    simp only [redeliver, if_neg hlate, if_neg hlate']
    exact map_deliver f scope { entry with attempts := entry.attempts + 1 } a layer

theorem map_start (settings : Settings) (choice : Choice) (caller : Scope) (a : Ambient)
    (layer : Layer P) :
    start settings choice caller a (layer.map f) =
      mapGoing f (start settings choice caller a layer) := by
  cases hentries : layer.backlog.entries with
  | nil =>
      simp [start, map, Backlog.map, Backlog.takeOrArm, hentries, Progress.map, Reading.map]
  | cons entry rest =>
      have hredeliver := map_redeliver f settings choice caller (a.childScope caller).1 entry
        (a.childScope caller).2 { layer with backlog := { layer.backlog with entries := rest } }
      simpa [start, map, Backlog.map, Backlog.takeOrArm, hentries] using hredeliver

theorem map_drain (settings : Settings) (scope : Scope) (a : Ambient) (layer : Layer P) :
    drain settings scope a (layer.map f) = mapGoing f (drain settings scope a layer) := by
  by_cases hpending : layer.pending ≤ 0
  · simp [drain, map, hpending, finish, Progress.map, Answer.map]
  · simp [drain, map, hpending, Progress.map, Reading.map]

theorem map_answered (settings : Settings) (scope : Scope) (answer : Answer P.Receipt)
    (a : Ambient) (layer : Layer P) :
    answered settings scope (answer.map f.receipt) a (layer.map f) =
      mapGoing f (answered settings scope answer a layer) := by
  cases answer with
  | delivered batch receipt =>
      exact map_deliver f scope (.fresh batch receipt settings.backoff) a
        { layer with pending := layer.pending + 1 }
  | failed error =>
      cases error with
      | closed => exact map_drain f settings scope a layer
      | connection | timeout | cancelled => rfl
  | died reason => rfl

theorem map_asked (settings : Settings) (scope : Scope)
    (result : Progress P.Read P.Receipt × Ambient × P.State) (layer : Layer P) :
    asked settings scope (Prod.map (Progress.map f.read f.receipt) (Prod.map id f.state) result)
      (layer.map f) = mapGoing f (asked settings scope result layer) := by
  rcases result with ⟨progress, a, inner⟩
  cases progress with
  | going read => rfl
  | ended answer => exact map_answered f settings scope answer a { layer with inner }

theorem map_step (settings : Settings) (choice : Choice) (read : Reading P) (a : Ambient)
    (layer : Layer P) :
    step settings choice (read.map f) a (layer.map f) =
      (step settings choice read a layer).map (mapGoing f) := by
  cases read with
  | armed scope =>
      by_cases hclosed : layer.inputClosed
      · have hdrain := map_drain f settings scope a layer
        simpa [step, Reading.map, map, hclosed] using hdrain
      · have hasked := map_asked f settings scope (P.start choice scope a layer.inner) layer
        rw [← f.map_start] at hasked
        simpa [step, Reading.map, map, hclosed] using hasked
  | asking scope read =>
      simp only [step, Reading.map]
      rw [map, f.map_step, Option.map_map, Option.map_map]
      exact congrArg (Option.map · _) (funext fun result => map_asked f settings scope result layer)
  | pacing caller scope entry due =>
      simp only [step, Reading.map, Option.map_map]
      refine congrArg (Option.map · _) (funext fun cancelled => ?_)
      cases cancelled with
      | true => simp [finish, map, Backlog.map, Backlog.putBack, Progress.map, Answer.map]
      | false => exact map_deliver f scope { entry with attempts := entry.attempts + 1 } a layer
  | draining scope due =>
      simp only [step, Reading.map, Option.map_map]
      refine congrArg (Option.map · _) (funext fun cancelled => ?_)
      cases cancelled with
      | true => rfl
      | false => exact map_drain f settings scope a layer

theorem map_connect (caller : Scope) (a : Ambient) (layer : Layer P) :
    connect caller a (layer.map f) =
      Prod.map id (Prod.map id (map f)) (connect caller a layer) := by
  rcases hconnect : P.connect caller a layer.inner with ⟨result, a', inner⟩
  have hmap : Q.connect caller a (layer.map f).inner = (result, a', f.state inner) := by
    rw [map, f.map_connect, hconnect]
    rfl
  simp only [connect, hconnect, hmap]
  split
  · by_cases hpending : 0 < layer.pending <;> simp [map, hpending]
  · rfl

theorem map_settle (held : Held P.Receipt) (outcome : Outcome) (a : Ambient) (layer : Layer P) :
    settle (held.map f.receipt) outcome a (layer.map f) =
      Prod.map id (Prod.map id (map f)) (settle held outcome a layer) := by
  cases outcome with
  | processed => simp [settle, map, Held.map, Entry.map, f.map_settle]
  | failed failure =>
      simp [settle, held.map_afterFailure, map, Backlog.map, Backlog.append, Entry.map,
        Entry.markFailed]

/-- A look at the layer shows the same. -/
theorem stats_map (layer : Layer P) : (layer.map f).stats = layer.stats := by
  have hlast : (Entry.lastFailed ∘ Entry.map f.receipt) = Entry.lastFailed := rfl
  simp only [stats, map, Backlog.map, Backlog.size, Backlog.maxAttempts, Backlog.oldestFailure,
    List.length_map, List.foldl_map, List.filterMap_map, hlast]
  rfl

/-- A map between ports as one between the layers around them. -/
def hom (settings : Settings) : (port settings P).Hom (port settings Q) where
  state := map f
  read := Reading.map f
  receipt := Held.map f.receipt
  map_connect := map_connect f
  map_close caller a layer := by simp [port, close, map, f.map_close]
  map_start := map_start f settings
  map_step := map_step f settings
  map_wake read layer := by
    cases read with
    | asking scope read => exact f.map_wake read layer.inner
    | armed | pacing | draining => rfl
  map_settle := map_settle f

/-- The port inside changes by itself, and nothing else does. -/
def ChangesInner (g : Layer P → Layer P) : Prop :=
  ∃ f : P.State → P.State, g = fun layer => { layer with inner := f layer.inner }

/-- Anybody may use the layer. -/
def anyone (settings : Settings) (P : Port) : Discipline (port settings P) where
  enters _ _ := True
  changes := ChangesInner

/-- One reader at a time uses the layer, in scopes that the layer has not armed. -/
def alone (settings : Settings) (P : Port) : Discipline (port settings P) where
  enters s caller := s.readers = [] ∧ ∀ id ∈ caller.id :: caller.around,
    id < s.ambient.scopes.flags.size ∧ id ≠ Scope.id (Backlog.interrupt (backlog s.state))
  changes := ChangesInner

end Layer

namespace Watch

variable {settings : Settings} {P : Port}

/-- The journals are forgotten. -/
def forget (settings : Settings) (P : Port) :
    (Layer.watched settings P).Hom (Layer.port settings P) :=
  (Port.forget _).comp (Layer.hom P.forget settings)

/-- The session of the layer alone. -/
def plain (s : Watch settings P) : Session (Layer.port settings P) := s.map (forget settings P)

/-- A change of the source is seen when the journals are forgotten. -/
theorem exists_changeSource {g : Layer P → Layer P} (h : Layer.ChangesInner g) :
    ∃ g', ChangesSource g' ∧
      ∀ s, (forget settings P).state (g' s) = g ((forget settings P).state s) := by
  rcases h with ⟨f, rfl⟩
  exact ⟨changeSource f, ⟨f, rfl⟩, fun _ => rfl⟩

/-- Whatever anybody can bring about with a layer is a session that was watched. -/
theorem exists_watch {source : P.State} {a : Ambient} {t : Session (Layer.port settings P)}
    (h : Session.Reaches (Layer.anyone settings P)
      (.new a.freshScope.2 (Layer.new source a.freshScope.1)) t) :
    ∃ s : Watch settings P,
      Session.Reaches (anyone settings P) (start settings source a) s ∧ s.plain = t :=
  Session.Reaches.lift (forget settings P) (fun _ _ _ => trivial)
    (fun _ hg => exists_changeSource hg) h

/-- Whatever one reader at a time can bring about with a layer is a session that was
watched, with one reader at a time. -/
theorem exists_watch_alone {source : P.State} {a : Ambient}
    {t : Session (Layer.port settings P)}
    (h : Session.Reaches (Layer.alone settings P)
      (.new a.freshScope.2 (Layer.new source a.freshScope.1)) t) :
    ∃ s : Watch settings P,
      Session.Reaches (alone settings P) (start settings source a) s ∧ s.plain = t := by
  have henters : ∀ (s : Watch settings P) caller,
      (Layer.alone settings P).enters (s.map (forget settings P)) caller →
        (alone settings P).enters s caller := by
    rintro s caller ⟨hreaders, hown⟩
    exact ⟨List.map_eq_nil_iff.1 hreaders, hown⟩
  exact Session.Reaches.lift (forget settings P) henters (fun _ hg => exists_changeSource hg) h

end Watch

end Redelivery
