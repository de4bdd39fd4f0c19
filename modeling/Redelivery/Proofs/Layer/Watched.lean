import Mathlib.Algebra.Order.Group.Multiset
import Redelivery.Proofs.Layer.Accounts
import Redelivery.Proofs.Session.Recorded
import Redelivery.Source.Memory

/-!
# A watched layer

A layer around any source is watched by keeping a journal inside, between the layer and
the source, and one outside, between the layer and those who use it.  Anybody may use
it, in any number of reads at once, and the source may change by itself in any way.

Every move of such a session does to the accounts of the layer one of the things that
can happen to them, so what holds of all accounts holds of all sessions.

Main definitions:

* `Layer.watched`, `Watch`, `Watch.start`: the port, a session of it, and its start.
* `Watch.anyone`, `Watch.alone`: the discipline that forbids nothing, and that of one
  reader at a time, with scopes of its own.
* `Watch.held`, `Watch.queued`, `Watch.paced`, `Watch.accounts`: where the entries are.

Main results:

* Theorem `Watch.accounts_step`: every move is a step of the accounts.
* Theorem `Watch.reachable_accounts`: what is reached has accounts that are reached.
-/

namespace Redelivery

/-- A layer around a source, with a journal inside and one outside. -/
abbrev Layer.watched (settings : Settings) (P : Port) : Port :=
  (Layer.port settings P.recorded).recorded

/-- A session of a watched layer. -/
abbrev Watch (settings : Settings) (P : Port) := Session (Layer.watched settings P)

namespace Watch

variable {settings : Settings} {P : Port}

/-- Nobody has used the layer, whatever happened to the source. -/
def start (settings : Settings) (source : P.State) (a : Ambient) : Watch settings P :=
  .new a.freshScope.2 ⟨[], Layer.new ⟨[], source⟩ a.freshScope.1⟩

/-- The layer. -/
abbrev layer (s : Watch settings P) : Layer P.recorded := s.state.state

/-- The journal between the layer and those who use it. -/
abbrev journal (s : Watch settings P) : Journal (Held (Numbered P.Receipt)) := s.state.journal

/-- The journal between the layer and the source. -/
abbrev source (s : Watch settings P) : Journal P.Receipt := s.layer.source

/-- The source changes by itself. -/
def changeSource (f : P.State → P.State) (s : Recorded (Layer.port settings P.recorded)) :
    Recorded (Layer.port settings P.recorded) :=
  { s with state := { s.state with inner := ⟨s.state.inner.journal, f s.state.inner.state⟩ } }

/-- A way for the source to change, and nothing else. -/
def ChangesSource (f : Recorded (Layer.port settings P.recorded) →
    Recorded (Layer.port settings P.recorded)) : Prop :=
  ∃ g, f = changeSource g

/-- A change of the source is not written down. -/
theorem ChangesSource.unwritten {f : Recorded (Layer.port settings P.recorded) →
    Recorded (Layer.port settings P.recorded)} (h : ChangesSource f) : Recorded.Changes f := by
  rcases h with ⟨g, rfl⟩
  exact ⟨fun layer => { layer with inner := ⟨layer.inner.journal, g layer.inner.state⟩ }, rfl⟩

/-- Anybody may read or connect at any time, and the source may change in any way. -/
def anyone (settings : Settings) (P : Port) : Discipline (Layer.watched settings P) where
  enters _ _ := True
  changes := ChangesSource

/-- A caller's scope, and those around it, exist, and the layer has not armed them. -/
def OwnScope (s : Watch settings P) (caller : Scope) : Prop :=
  ∀ id ∈ caller.id :: caller.around,
    id < s.ambient.scopes.flags.size ∧ id ≠ s.layer.backlog.interrupt.id

instance (s : Watch settings P) (caller : Scope) : Decidable (s.OwnScope caller) :=
  inferInstanceAs (Decidable (∀ id ∈ caller.id :: caller.around, _))

/-- One read or connect at a time, in scopes that are the caller's own; the source may
change in any way. -/
def alone (settings : Settings) (P : Port) : Discipline (Layer.watched settings P) where
  enters s caller := s.readers = [] ∧ OwnScope s caller
  changes := ChangesSource

/-- One reader at a time is anyone. -/
theorem anyone_of_alone {start s : Watch settings P}
    (h : Session.Reaches (alone settings P) start s) :
    Session.Reaches (anyone settings P) start s := by
  have hchanges : ∀ f, (alone settings P).changes f → (anyone settings P).changes f :=
    fun _ hf => hf
  exact h.mono (fun _ _ _ => trivial) hchanges

/-! ## Where the entries are -/

/-- The entry of a delivery. -/
def heldBy (delivery : Delivery (Layer.watched settings P)) : Entry (Numbered P.Receipt) :=
  delivery.receipt.value.entry

/-- The entries that a read has taken from the backlog. -/
def pacedBy (reader : Reader (Layer.watched settings P)) : List (Entry (Numbered P.Receipt)) :=
  reader.read.value.entries

/-- The entries that were delivered and are not reported on. -/
def held (s : Watch settings P) : List (Entry (Numbered P.Receipt)) :=
  s.deliveries.map heldBy

/-- The entries in the backlog. -/
def queued (s : Watch settings P) : List (Entry (Numbered P.Receipt)) :=
  s.layer.backlog.entries

/-- The entries that reads have taken from the backlog, and whose delays are not over. -/
def paced (s : Watch settings P) : List (Entry (Numbered P.Receipt)) :=
  s.readers.flatMap pacedBy

/-- The entries that are not in the backlog. -/
def elsewhere (s : Watch settings P) : Multiset (Entry (Numbered P.Receipt)) :=
  s.held + s.paced

/-- The accounts of the layer. -/
def accounts (s : Watch settings P) : Accounts P.Receipt :=
  s.layer.accounts s.elsewhere s.journal

/-- What is on its way is held by somebody, or in the backlog, or its delay is not over. -/
theorem mem_live_iff (s : Watch settings P) {entry : Entry (Numbered P.Receipt)} :
    entry ∈ s.accounts.live ↔ entry ∈ s.held ++ s.queued ++ s.paced := by
  simp [accounts, Layer.accounts, elsewhere, queued, or_comm]

/-! ## Every move is a step of the accounts -/

/-- Before a turn its read has the entry, or none. -/
theorem elsewhere_before {s : Watch settings P} {point : (Layer.watched settings P).Point}
    {id : Nat} {before after : List (Reader (Layer.watched settings P))}
    (readers : s.readers = before ++ point.readers id ++ after) :
    s.elsewhere = Layer.entriesBefore point.plain +
      (s.held + ((before ++ after).flatMap pacedBy : List _)) := by
  have hpoint : (point.readers id).flatMap pacedBy = Layer.entriesBefore point.plain := by
    cases point with
    | outside caller => rfl
    | inside read => exact List.flatMap_singleton ..
  simp only [elsewhere, paced, readers, List.flatMap_append, hpoint, ← Multiset.coe_add]
  ac_rfl

/-- After a turn the read has the entry, or it is delivered. -/
theorem elsewhere_after (s : Watch settings P) (id number delivery next : Nat)
    (before after : List (Reader (Layer.watched settings P)))
    (progress : Layer.Going P.recorded) (a : Ambient) (state : (Layer.watched settings P).State) :
    elsewhere ⟨a, state, before ++ Reader.after id (progress.numbered number delivery) ++ after,
        s.deliveries ++ Delivery.after id (progress.numbered number delivery), next⟩ =
      Layer.entriesAfter progress + (s.held + ((before ++ after).flatMap pacedBy : List _)) := by
  have hprogress : (((Delivery.after (P := Layer.watched settings P) id
        (progress.numbered number delivery)).map heldBy : List (Entry (Numbered P.Receipt))) :
        Multiset (Entry (Numbered P.Receipt))) +
      ((Reader.after (P := Layer.watched settings P) id
        (progress.numbered number delivery)).flatMap pacedBy : List (Entry (Numbered P.Receipt))) =
      Layer.entriesAfter progress := by
    cases progress with
    | going read =>
        simp [Progress.numbered, Delivery.after, Reader.after, Layer.entriesAfter, pacedBy]
    | ended answer =>
        cases answer <;>
          simp [Progress.numbered, Delivery.after, Reader.after, Layer.entriesAfter, heldBy]
  simp only [elsewhere, held, paced, List.map_append, List.flatMap_append, ← Multiset.coe_add,
    ← hprogress]
  ac_rfl

/-- A turn of a read is a step of the accounts. -/
theorem accounts_turn {s : Watch settings P} {choice : Choice}
    {point : (Layer.watched settings P).Point} {id : Nat}
    {before after : List (Reader (Layer.watched settings P))}
    {progress : Progress (Layer.watched settings P).Read (Layer.watched settings P).Receipt}
    {a : Ambient} {state : (Layer.watched settings P).State} (next : Nat)
    (readers : s.readers = before ++ point.readers id ++ after)
    (turn : (Layer.watched settings P).turn choice point s.ambient s.state =
      some (progress, a, state)) :
    s.accounts.Step (accounts ⟨a, state, before ++ Reader.after id progress ++ after,
      s.deliveries ++ Delivery.after id progress, next⟩) := by
  rcases Port.recorded_turn turn with ⟨plain, hturn, rfl, hjournal⟩
  have hstep := (Layer.turn_cases hturn).accounts_step
    (s.held + ((before ++ after).flatMap pacedBy : List _)) s.journal (point.number s.journal)
  rw [accounts, accounts, elsewhere_before readers, elsewhere_after]
  simp only [journal] at hstep ⊢
  rw [hjournal]
  exact hstep

/-- Every move is a step of the accounts. -/
theorem accounts_step {D : Discipline (Layer.watched settings P)}
    (own : ∀ f, D.changes f → ChangesSource f) {s s' : Watch settings P}
    (move : s.Move D s') (hfiled : s.Filed) : s.accounts.Step s'.accounts := by
  cases move with
  | turns enters readers turn => exact accounts_turn _ readers turn
  | @reports delivery outcome settlement before after a state deliveries settles =>
      rcases Port.recorded_settle settles with ⟨hsettles, hjournal⟩
      -- The delivery is in the journal, so the report is one on what was handed out there.
      have hfound := hfiled delivery (by simp [deliveries])
      have hlive : s.elsewhere =
          heldBy delivery ::ₘ (((before ++ after).map heldBy : List _) + s.paced) := by
        simp only [elsewhere, held, deliveries, List.map_append, List.map_cons, ← Multiset.coe_add,
          ← Multiset.cons_coe, Multiset.add_cons, Multiset.cons_add]
      change (s.layer.accounts s.elsewhere s.journal).Step
        (Layer.accounts state.state _ state.journal)
      rw [hlive, hjournal]
      exact Layer.settle_accounts_step hfound hsettles _
  | @connects caller result a state enters connects =>
      rcases Port.recorded_connect connects with ⟨hconnects, hjournal⟩
      change s.accounts.Step (Layer.accounts state.state s.elsewhere state.journal)
      rw [hjournal, Layer.connect_accounts hconnects]
      exact .stays
  | @closes caller result a state closes =>
      rcases Port.recorded_close closes with ⟨hcloses, hjournal⟩
      change s.accounts.Step (Layer.accounts state.state s.elsewhere state.journal)
      rw [hjournal, Layer.close_accounts hcloses]
      exact .stays
  | changes hown =>
      rcases own _ hown with ⟨g, rfl⟩
      exact .stays
  | elapses grows => exact .stays

/-- The accounts of what can be reached are reached. -/
theorem reachable_accounts {D : Discipline (Layer.watched settings P)}
    (own : ∀ f, D.changes f → ChangesSource f) {source : P.State} {a : Ambient}
    {s : Watch settings P} (h : Session.Reaches D (start settings source a) s) :
    s.accounts.Reachable := by
  have hboth : s.Filed ∧ s.accounts.Reachable := by
    refine h.induct (motive := fun s => Session.Filed s ∧ (accounts s).Reachable)
      (Session.distinct_new _ _) ⟨by simp [Session.Filed, start, Session.new], .empty⟩ ?_
    intro s s' hs hmove
    have hfiled := hmove.filed (fun f hf => (own f hf).unwritten) hs.1
    exact ⟨hfiled, .step hs.2 (accounts_step own hmove hs.1)⟩
  exact hboth.2

/-! ## A run

A source in memory has one batch of two parts, and ends after it.  The batch is read, its
first part fails and is delivered again alone, and succeeds; the next read is told of the
end. -/

namespace Tour

def choice : Choice := ⟨false, fun low _ => low⟩

def caller : Scope := ⟨1, []⟩

def batch : Batch := (Mint.empty.batch [[97], [98]]).1

/-- Somebody has a scope, and reads. -/
def read (source : Memory) : Watch .default Memory.port :=
  let s : Watch .default Memory.port := start .default source (.start .epoch)
  ((s.scope false).2.startRead choice caller).2

/-- The source is asked. -/
def asked : Watch .default Memory.port := (read (.finite [batch])).goOn choice 0

/-- The batch is delivered. -/
def delivered : Watch .default Memory.port := asked.goOn choice 0

def failure : Failure :=
  .parts ((PartialFailure.ofBatch (Group.tag ⟨0, 2⟩ batch) "full").failed 0 "too large")

/-- The first part has failed. -/
def failed : Watch .default Memory.port := delivered.told 0 (.failed failure)

/-- The first part is delivered again. -/
def redelivered : Watch .default Memory.port := (failed.startRead choice caller).2

/-- The first part has succeeded. -/
def processed : Watch .default Memory.port := redelivered.told 1 .processed

/-- The next read is told of the end. -/
def ended : Watch .default Memory.port :=
  ((processed.startRead choice caller).2.goOn choice 2).goOn choice 2

/-- In a source that has nothing, a read waits. -/
def waiting : Watch .default Memory.port :=
  (((read .empty).goOn choice 0).goOn choice 0).goOn choice 0

/-- All of it can be reached by one reader. -/
abbrev Reached (source : Memory) (s : Watch .default Memory.port) : Prop :=
  Session.Reaches (alone .default Memory.port) (start .default source (.start .epoch)) s

theorem reached_read (source : Memory) : Reached source (read source) := by
  refine .step (.step .start (.scope _ false)) (.startRead choice ⟨rfl, ?_⟩)
  intro id hid
  obtain rfl := List.mem_singleton.1 hid
  exact ⟨Nat.lt_succ_self 1, Nat.one_ne_zero⟩

theorem reached_failed : Reached (.finite [batch]) failed :=
  (((reached_read _).goOn choice 0).goOn choice 0).told 0 (.failed failure)

theorem reached_processed : Reached (.finite [batch]) processed := by
  have hread : Reached (.finite [batch]) redelivered :=
    reached_failed.step (.startRead choice ⟨rfl, by decide⟩)
  exact hread.told 1 .processed

theorem reached_ended : Reached (.finite [batch]) ended := by
  have hread : Reached (.finite [batch]) (processed.startRead choice caller).2 :=
    reached_processed.step (.startRead choice ⟨rfl, by decide⟩)
  exact (hread.goOn choice 2).goOn choice 2

theorem reached_waiting : Reached .empty waiting :=
  (((reached_read _).goOn choice 0).goOn choice 0).goOn choice 0

end Tour

end Watch

end Redelivery
