import Redelivery.Proofs.Layer.Order

/-!
# A read that comes back with nothing

A read that waits inside, or for the end of the port inside, comes back with nothing when
its scope is cancelled.  That scope is the read's own, inside its caller's.  While the read
goes on the layer itself cancels it as a failure joins the backlog, and only then.  But the
layer gives it to the source: if neither the source nor anybody else cancels it, a read that
comes back although its caller has not cancelled leaves an entry in the backlog, and the next
read serves that entry.

Main definitions:

* `Watch.ByOthers`: what becomes of the scopes in a step is not the layer's doing.
* `Watch.Spares`, `Watch.Undisturbed`: neither the source nor anybody else cancels the scope
  of a read.
* `Watch.Called`: a read whose own scope is cancelled is called back by the backlog.
* `Watch.Fails`, `Watch.Idle`: a read comes back with an error, and nobody reads.
* `Watch.owed`: the retries that there were, and the next one if it is certain.

Main results:

* Theorem `Layer.Turn.fails_cases`: why a read comes back with nothing.
* Theorem `Watch.spared_of_move`: the layer itself spares the scopes of the reads that go on.
* Theorem `Watch.Undisturbed.rereads`: the next read has something to serve.
* Theorem `Watch.Fails.cancelled_or_owed`: a read that comes back for nothing earns a retry.
-/

namespace Redelivery

/-! ## Turns -/

namespace Layer

variable {settings : Settings} {P : Port}

/-- The scope in which the read asks or waits before a turn. -/
def scopeBefore? : (port settings P).Point → Option Scope
  | .outside _ => none
  | .inside read => Reading.scope? read

/-- A read that goes on asks or waits in the scope that it was in, or in one that it has just
opened, or it pauses. -/
theorem Turn.scope_cases {choice : Choice} {a a' : Ambient} {layer layer' : Layer P}
    {point : (port settings P).Point} {read : Reading P} {scope : Scope}
    (turn : Turn settings choice a layer point (.going read) a' layer')
    (hscope : read.scope? = some scope) :
    a'.scopes.flag scope.id = false ∨
      scopeBefore? point = some scope ∧ layer'.backlog = layer.backlog := by
  have hasks : ∀ {inside : P.Point}, Asks settings layer point scope inside →
      scopeBefore? point = some scope := by
    intro inside asks
    cases asks with
    | begins | goesOn => rfl
  cases turn with
  | arms empty =>
      obtain rfl := Option.some.inj hscope
      simp [Ambient.childScope, Scopes.child, Scopes.flag]
  | paces => cases hscope
  | asks asks turn =>
      obtain rfl := Option.some.inj hscope
      exact .inr ⟨hasks asks, rfl⟩
  | holds atEnd pending =>
      obtain rfl := Option.some.inj hscope
      refine .inr ⟨?_, rfl⟩
      cases atEnd with
      | flagged | looked => rfl
      | answered asks turn => exact hasks asks

/-- In a turn with which a read goes on, the layer leaves what is shared to the port inside. -/
theorem Turn.acts_of_goesOn {choice : Choice} {a a' : Ambient} {layer layer' : Layer P}
    {read read' : Reading P}
    (turn : Turn settings choice a layer (.inside read) (.going read') a' layer') :
    a' = a ∨ P.Acts a layer.inner a' layer'.inner := by
  cases turn with
  | asks asks turn => exact .inr (.turn turn)
  | holds atEnd pending =>
      cases atEnd with
      | flagged | looked => exact .inl rfl
      | answered asks turn => exact .inr (.turn turn)

/-- A read that ends as it begins has taken an entry. -/
theorem Turn.entries_ne {choice : Choice} {a a' : Ambient} {layer layer' : Layer P} {caller : Scope}
    {answer : Answer (Held P.Receipt)}
    (turn : Turn settings choice a layer (.outside caller) (.ended answer) a' layer') :
    layer'.backlog.entries ≠ layer.backlog.entries := by
  cases turn with
  | redelivers head | breaks head =>
      rw [head]
      exact List.ne_cons_self
  | receives asks | fails asks | dies asks => cases asks
  | ends atEnd =>
      cases atEnd with
      | answered asks => cases asks

/-- Connecting leaves what is shared to the port inside. -/
theorem connect_acts {caller : Scope} {a a' : Ambient} {layer layer' : Layer P}
    {result : Except ReadError Unit} (connects : connect caller a layer = (result, a', layer')) :
    P.Acts a layer.inner a' layer'.inner := by
  rcases connect_cases caller a layer with ⟨found, b, inner, hinner, ⟨-, -, heq⟩ | ⟨-, heq⟩⟩
  · rcases Prod.mk.inj (heq.symm.trans connects) with ⟨-, hrest⟩
    rcases Prod.mk.inj hrest with ⟨rfl, rfl⟩
    exact .connect hinner
  · rcases Prod.mk.inj (heq.symm.trans connects) with ⟨-, hrest⟩
    rcases Prod.mk.inj hrest with ⟨rfl, rfl⟩
    exact .connect hinner

/-- Closing leaves what is shared to the port inside. -/
theorem close_acts {caller : Scope} {a a' : Ambient} {layer layer' : Layer P}
    {result : Except ReadError Unit} (closes : close caller a layer = (result, a', layer')) :
    P.Acts a layer.inner a' layer'.inner := by
  rcases closes with ⟨rfl, rfl, rfl⟩
  exact .close rfl

/-- A report of success leaves what is shared to the port inside. -/
theorem settle_acts {held : Held P.Receipt} {settlement : Settlement} {a a' : Ambient}
    {layer layer' : Layer P}
    (settles : settle held .processed a layer = (settlement, a', layer')) :
    P.Acts a layer.inner a' layer'.inner := by
  rcases settles with ⟨rfl, rfl, rfl⟩
  exact .settle rfl

/-- A failure joins the backlog. -/
theorem settle_entries_ne {held : Held P.Receipt} {failure : Failure} {settlement : Settlement}
    {a a' : Ambient} {layer layer' : Layer P}
    (settles : settle held (.failed failure) a layer = (settlement, a', layer')) :
    layer'.backlog.entries ≠ layer.backlog.entries := by
  rcases settles with ⟨rfl, rfl, rfl⟩
  simp

/-- A read that pauses has begun just now. -/
theorem Turn.outside_of_pacing {choice : Choice} {a a' : Ambient} {layer layer' : Layer P}
    {point : (port settings P).Point} {caller scope : Scope} {entry : Entry P.Receipt} {due : Nat}
    (turn : Turn settings choice a layer point (.going (.pacing caller scope entry due)) a'
      layer') :
    point = .outside caller := by
  cases turn with
  | paces => rfl

/-- A read that asks or waits has taken no entry. -/
theorem Reading.entries_of_scope {read : Reading P} {scope : Scope}
    (h : read.scope? = some scope) : read.entries = [] := by
  cases read with
  | armed | asking | draining => rfl
  | pacing => cases h

/-- The entries that a read may serve: one that it has taken, or those that it finds. -/
def ahead (layer : Layer P) : (port settings P).Point → List (Entry P.Receipt)
  | .outside _ => layer.backlog.entries
  | .inside read => Reading.entries read

/-- A read that goes on although there was something to serve has taken it. -/
theorem Turn.entries_of_ahead {choice : Choice} {a a' : Ambient} {layer layer' : Layer P}
    {point : (port settings P).Point} {read : Reading P}
    (turn : Turn settings choice a layer point (.going read) a' layer')
    (hahead : layer.ahead point ≠ []) : read.entries ≠ [] := by
  have hasks : ∀ {scope : Scope} {inside : P.Point}, Asks settings layer point scope inside →
      layer.ahead point = [] := by
    intro scope inside asks
    cases asks with
    | begins | goesOn => rfl
  cases turn with
  | arms empty => exact absurd empty hahead
  | paces => exact List.cons_ne_nil _ _
  | asks asks turn => exact absurd (hasks asks) hahead
  | holds atEnd pending =>
      cases atEnd with
      | flagged | looked => exact absurd rfl hahead
      | answered asks turn => exact absurd (hasks asks) hahead

/-- A turn that does not break off hands out again what it takes from the line. -/
theorem Moves.length_le {before after : Journal P.Receipt}
    {line line' : List (Entry (Numbered P.Receipt))} {progress : Going P.recorded}
    (moves : Moves before line progress after line')
    (marked : ∀ entry ∈ line, entry.lastFailed.isSome)
    (returned : ∀ reason, progress ≠ .ended (.died reason)) :
    line.length ≤ (retriesOf progress).length + line'.length := by
  cases moves with
  | keeps same fresh broken =>
      have hlength := congrArg List.length same
      simp only [List.length_map] at hlength
      omega
  | @serves entry rest batch held backoff again =>
      have hmarked : held.entry.lastFailed.isSome := by
        rw [again]
        exact marked entry List.mem_cons_self
      rw [retriesOf_delivered batch hmarked, List.length_cons, List.length_singleton]
      omega
  | loses reason => exact absurd rfl (returned reason)

/-- A read through a layer around a candid port comes back with nothing because its scope is
cancelled, or because it pauses and its caller's scope is. -/
theorem Turn.fails_cases (candid : P.Candid) {choice : Choice} {a a' : Ambient}
    {layer layer' : Layer P} {point : (port settings P).Point} {error : ReadError}
    (turn : Turn settings choice a layer point (.ended (.failed error)) a' layer')
    (retryable : error.isRetryable) {armed caller : Scope}
    (hawaits : Awaits armed a.scopes caller point) :
    (∃ scope, scopeBefore? point = some scope ∧ a.scopes.IsCancelled scope ∧
        layer'.backlog = layer.backlog) ∨
      ∃ caller scope entry due,
        point = .inside (.pacing caller scope entry due : Reading P) ∧
          a.scopes.IsCancelled caller := by
  cases turn with
  | putsBack cancelled => exact .inr ⟨_, _, _, _, rfl, cancelled⟩
  | ends => cases retryable
  | interrupted cancelled => exact .inl ⟨_, rfl, cancelled, rfl⟩
  | @fails _ scope inside _ _ _ asks turn opened =>
      have hwithin : inside.Within scope ∧ scopeBefore? point = some scope := by
        cases asks with
        | begins => exact ⟨rfl, rfl⟩
        | goesOn => exact ⟨hawaits.2.2, rfl⟩
      cases error with
      | connection reason | closed => cases retryable
      | timeout => exact absurd turn candid.timeout
      | cancelled => exact .inl ⟨scope, hwithin.2, candid.cancelled hwithin.1 turn, rfl⟩

end Layer

/-! ## Sessions -/

namespace Watch

variable {settings : Settings} {P : Port}

/-- In this step others act, or the source does, perhaps after others have added something to
what is shared: what becomes of the scopes is not the layer's doing. -/
inductive ByOthers (s s' : Watch settings P) : Prop
  | elapses {a : Ambient} (same : s' = { s with ambient := a })
  | acts {b : Ambient} (adds : s.ambient.Adds b)
      (acts : P.Acts b s.layer.inner.state s'.ambient s'.layer.inner.state)

/-- What others have added before makes no difference. -/
theorem ByOthers.of_adds {s s' : Watch settings P} {b : Ambient} (adds : s.ambient.Adds b)
    (h : ByOthers { s with ambient := b } s') : s.ByOthers s' := by
  cases h with
  | elapses same => exact .elapses same
  | acts more acts => exact .acts (adds.trans more) acts

/-- The scopes in which reads ask or wait are as they were, unless an entry joins or leaves the
backlog, or a read begins or ends. -/
def Spared (s s' : Watch settings P) : Prop :=
  s'.queued = s.queued → s'.readers.map Reader.id = s.readers.map Reader.id →
    ∀ reader ∈ s.readers, ∀ scope, reader.read.value.scope? = some scope →
      s'.ambient.scopes.flag scope.id = s.ambient.scopes.flag scope.id

theorem spared_of_flags {s s' : Watch settings P}
    (h : ∀ id, s'.ambient.scopes.flag id = s.ambient.scopes.flag id) : s.Spared s' :=
  fun _ _ _ _ _ _ => h _

/-- In this step neither the source nor anybody else around the layer cancels a scope in which
a read asks or waits. -/
def Spares (s s' : Watch settings P) : Prop := s.ByOthers s' → s.Spared s'

/-- The layer itself spares the scopes of the reads that go on, until a failure is reported. -/
theorem spared_of_move {D : Discipline (Layer.watched settings P)} {s s' : Watch settings P}
    (move : s.Move D s') (spares : s.Spares s') : s.Spared s' := by
  have hacts : P.recorded.Acts s.ambient s.layer.inner s'.ambient s'.layer.inner → s.Spared s' :=
    fun acts => spares (.acts (.refl _) acts.plain)
  cases move with
  | @turns choice point id before after progress a state enters readers turn =>
      rcases Port.recorded_turn turn with ⟨plain, hplain, rfl, -⟩
      have hturn := Layer.turn_cases hplain
      intro hqueued hids
      have hlength := congrArg List.length hids
      simp only [readers, List.length_map, List.length_append] at hlength
      cases point with
      | outside caller =>
          cases plain with
          | going read =>
              -- There is one reader more than before.
              simp [Port.Point.readers, Reader.after, Progress.numbered] at hlength
          | ended answer => exact absurd hqueued hturn.entries_ne
      | inside read =>
          cases plain with
          | going read' =>
              rcases hturn.acts_of_goesOn with hsame | hasked
              · exact spared_of_flags (fun id => congrArg (·.scopes.flag id) hsame) hqueued hids
              · exact hacts hasked hqueued hids
          | ended answer =>
              -- There is one reader less.
              cases answer <;>
                simp [Port.Point.readers, Reader.after, Progress.numbered] at hlength
  | @reports delivery outcome settlement before after a state deliveries settles =>
      rcases Port.recorded_settle settles with ⟨hsettles, -⟩
      cases outcome with
      | processed => exact hacts (Layer.settle_acts hsettles)
      | failed failure => exact fun hqueued => absurd hqueued (Layer.settle_entries_ne hsettles)
  | connects enters connects => exact hacts (Layer.connect_acts (Port.recorded_connect connects).1)
  | closes closes => exact hacts (Layer.close_acts (Port.recorded_close closes).1)
  | changes hown => exact spared_of_flags fun _ => rfl
  | elapses grows => exact spares (.elapses rfl)

/-- A session with one reader, in which neither the source nor anybody else around the layer
cancels a scope in which a read asks or waits. -/
inductive Undisturbed (source : P.State) (a : Ambient) : Watch settings P → Prop
  | begins : Undisturbed source a (start settings source a)
  | step {s s' : Watch settings P} : Undisturbed source a s →
      Session.Step (alone settings P) s s' → s.Spares s' → Undisturbed source a s'

theorem Undisturbed.reaches {source : P.State} {a : Ambient} {s : Watch settings P}
    (h : Undisturbed source a s) :
    Session.Reaches (alone settings P) (start settings source a) s := by
  induction h with
  | begins => exact .start
  | step _ hstep _ ih => exact ih.step hstep

/-- If the scope in which a read asks or waits is itself cancelled, the backlog has entries.
A read that pauses does so for the caller who began it. -/
structure Called (s : Watch settings P) : Prop where
  entries : ∀ reader ∈ s.readers, ∀ scope, reader.read.value.scope? = some scope →
    s.ambient.scopes.flag scope.id = true → s.queued ≠ []
  caller : ∀ reader ∈ s.readers, ∀ caller scope entry due,
    reader.read.value = .pacing caller scope entry due →
      s.journal.callers[reader.read.number]? = some caller

theorem called_start (source : P.State) (a : Ambient) : (start settings source a).Called where
  entries _ h := absurd h List.not_mem_nil
  caller _ h := absurd h List.not_mem_nil

/-- What happens beside the reads calls none of them back for nothing. -/
theorem Called.aside {s s' : Watch settings P} (h : s.Called) (aside : s.Aside s')
    (spared : s.Spared s') : s'.Called where
  entries reader hreader scope hscope hflag := by
    rw [aside.readers] at hreader
    by_cases hpushes : s.pushes s' = []
    · have hqueued : s'.queued = s.queued := by simpa [hpushes] using aside.queued
      have hids : s'.readers.map Reader.id = s.readers.map Reader.id := by rw [aside.readers]
      rw [hqueued]
      exact h.entries reader hreader scope hscope
        ((spared hqueued hids reader hreader scope hscope).symm.trans hflag)
    · rw [aside.queued]
      simp [hpushes]
  caller reader hreader caller scope entry due hpacing := by
    rw [aside.readers] at hreader
    rw [aside.callers]
    exact h.caller reader hreader caller scope entry due hpacing

/-- A turn of the only read does not call it back for nothing. -/
theorem Called.turn {s s' : Watch settings P} (h : s.Called) {choice : Choice}
    {point : (Layer.watched settings P).Point} {id : Nat}
    {progress : Progress (Layer.watched settings P).Read (Layer.watched settings P).Receipt}
    (takes : s.TakesTurn s' choice point id progress) (spared : s.Spared s') : s'.Called := by
  rcases Port.recorded_turn takes.turn with ⟨plain, hturn, rfl, hjournal⟩
  have hturn := Layer.turn_cases hturn
  have hreaders := takes.readers'
  cases plain with
  | ended answer =>
      have hnone : s'.readers = [] := by cases answer <;> exact hreaders
      exact ⟨by simp [hnone], by simp [hnone]⟩
  | going read =>
      have hone : s'.readers = [⟨id, ⟨point.number s.journal, read⟩⟩] := hreaders
      constructor
      · intro reader hreader scope hscope hflag
        obtain rfl := List.mem_singleton.1 (hone ▸ hreader)
        rcases hturn.scope_cases hscope with hfresh | ⟨hbefore, hbacklog⟩
        · exact absurd hflag (by simp [hfresh])
        cases point with
        | outside caller => cases hbefore
        | inside before =>
            have hmem : (⟨id, before⟩ : Reader (Layer.watched settings P)) ∈ s.readers :=
              takes.readers ▸ List.mem_singleton_self _
            have hqueued : s'.queued = s.queued := congrArg Backlog.entries hbacklog
            have hids : s'.readers.map Reader.id = s.readers.map Reader.id := by
              simp [hone, takes.readers, Port.Point.readers]
            rw [hqueued]
            exact h.entries _ hmem scope hbefore
              ((spared hqueued hids _ hmem scope hbefore).symm.trans hflag)
      · intro reader hreader caller scope entry due hpacing
        obtain rfl := List.mem_singleton.1 (hone ▸ hreader)
        obtain rfl : read = .pacing caller scope entry due := hpacing
        have hcallers : s'.journal.callers = (s.journal ++ point.plain.exchanges).callers := by
          simp [journal, hjournal]
        rw [hcallers]
        have houtside := hturn.outside_of_pacing
        cases point with
        | outside outer =>
            obtain rfl := Port.Point.outside.inj houtside
            simp [Port.Point.number, Port.Point.plain, Port.Point.exchanges, Exchange.callers]
        | inside inner => cases houtside

/-- In an undisturbed session no read is called back for nothing. -/
theorem Undisturbed.called (steady : P.Steady) {source : P.State} {a : Ambient}
    {s : Watch settings P} (h : Undisturbed source a s) : s.Called := by
  induction h with
  | begins => exact called_start source a
  | @step s s' before hstep hspares ih =>
      have hreach := before.reaches
      have hmove := hstep.move (hreach.distinct (Session.distinct_new _ _))
      have hspared := spared_of_move hmove hspares
      have halone := (alert_of_reaches steady hreach).alone
      rcases turns_or_aside hmove (filed_of_reaches (fun _ hf => hf) hreach) halone with
        ⟨choice, point, id, progress, takes⟩ | haside
      · exact ih.turn takes hspared
      · exact ih.aside haside hspared

/-! ## What is owed -/

/-- The retries that there were, and one more if the read that is in progress has taken an
entry, or nobody reads and the next read will find one. -/
def owed (s : Watch settings P) : Nat :=
  s.retried + min 1 (if s.readers = [] then s.queued.length else s.paced.length)

/-- No more is owed than has failed. -/
theorem owed_le {source : P.State} {a : Ambient} {s : Watch settings P}
    (h : Session.Reaches (alone settings P) (Watch.start settings source a) s) :
    s.owed ≤ s.failures := by
  have hle := retried_add_le h
  unfold owed
  split <;> omega

/-- What happens beside the reads takes nothing off what is owed. -/
theorem Aside.owed_le {s s' : Watch settings P} (aside : s.Aside s') : s.owed ≤ s'.owed := by
  have hretried : s'.retried = s.retried := by rw [retried, retried, aside.issued]
  have hpaced : s'.paced = s.paced := by rw [paced, paced, aside.readers]
  have hqueued := congrArg List.length aside.queued
  rw [List.length_append] at hqueued
  simp only [owed, hretried, hpaced, aside.readers]
  split <;> omega

theorem TakesTurn.owed_eq {s s' : Watch settings P} {choice : Choice}
    {point : (Layer.watched settings P).Point} {id : Nat}
    {progress : Progress (Layer.watched settings P).Read (Layer.watched settings P).Receipt}
    (takes : s.TakesTurn s' choice point id progress) :
    s.owed = s.retried + min 1 (s.layer.ahead point.plain).length := by
  have hreaders := takes.readers
  cases point with
  | outside caller =>
      have hnone : s.readers = [] := hreaders
      simp [owed, hnone, Layer.ahead, Port.Point.plain, queued]
  | inside read =>
      have hone : s.readers = [⟨id, read⟩] := hreaders
      simp [owed, hone, Layer.ahead, Port.Point.plain, paced, pacedBy]

/-- A turn of the only read hands out what is owed, or leaves it. -/
theorem TakesTurn.owed_le {s s' : Watch settings P} {choice : Choice}
    {point : (Layer.watched settings P).Point} {id : Nat}
    {progress : Progress (Layer.watched settings P).Read (Layer.watched settings P).Receipt}
    (takes : s.TakesTurn s' choice point id progress)
    (marked : ∀ entry ∈ s.paced ++ s.queued, entry.lastFailed.isSome)
    (returned : ∀ reason, progress ≠ .ended (.died reason)) : s.owed ≤ s'.owed := by
  rcases Port.recorded_turn takes.turn with ⟨plain, hturn, rfl, hjournal⟩
  have hturn := Layer.turn_cases hturn
  have hretried : s'.retried = s.retried + (Layer.retriesOf plain).length := by
    simp only [retried, journal, hjournal, Journal.issued_append, Port.Point.issued_exchanges,
      Progress.issued_exchanges, List.nil_append, List.countP_append, Layer.retriesOf,
      ← List.countP_eq_length_filter, List.countP_map]
    rfl
  have hahead : (s.layer.ahead point.plain).length ≤ (Layer.line point.plain s.layer).length := by
    cases point <;> simp [Layer.ahead, Layer.line, Port.Point.plain, Layer.entriesBefore]
  have hline : ∀ entry ∈ Layer.line point.plain s.layer, entry.lastFailed.isSome :=
    takes.line_eq ▸ marked
  have hline' := congrArg List.length takes.lineAfter_eq
  rw [List.length_append] at hline'
  rw [takes.owed_eq]
  cases plain with
  | going read =>
      have hone : s'.readers = [⟨id, ⟨point.number s.journal, read⟩⟩] := takes.readers'
      have hpaced : s'.paced = read.entries := by simp [paced, hone, pacedBy]
      have hmore : s'.owed = s.retried + min 1 read.entries.length := by
        simp [owed, hone, hpaced, hretried, Layer.retriesOf, Progress.issued]
      rw [hmore]
      by_cases hnone : s.layer.ahead point.plain = []
      · simp [hnone]
      · have hlength := List.length_pos_iff.2 (hturn.entries_of_ahead hnone)
        omega
  | ended answer =>
      have hnone : s'.readers = [] := by cases answer <;> exact takes.readers'
      have hmore : s'.owed = s.retried + (Layer.retriesOf (.ended answer)).length +
          min 1 s'.queued.length := by
        rw [owed, hnone, hretried]
        rfl
      rw [hmore]
      have hpaced : s'.paced = [] := by simp [paced, hnone]
      have hreturned : ∀ reason,
          (.ended answer : Layer.Going P.recorded) ≠ .ended (.died reason) := by
        rintro reason ⟨⟩
        exact returned reason rfl
      have hlength : (Layer.line point.plain s.layer).length ≤
          (Layer.retriesOf (.ended answer)).length +
            (Layer.lineAfter (.ended answer) s'.layer).length :=
        hturn.moves.length_le hline hreturned
      rw [hpaced, List.length_nil] at hline'
      omega

/-! ## A read that comes back -/

/-- A read that somebody began in a scope comes back with an error. -/
inductive Fails (s : Watch settings P) (caller : Scope) (error : ReadError) :
    Watch settings P → Prop
  | atOnce {choice : Choice} {s' : Watch settings P} (enters : (alone settings P).enters s caller)
      (h : s.startRead choice caller = (some (.failed error), s')) : Fails s caller error s'
  | later {choice : Choice} {reader : Reader (Layer.watched settings P)} {s' : Watch settings P}
      (mem : reader ∈ s.readers)
      (began : s.journal.callers[reader.read.number]? = some caller)
      (h : s.stepRead choice reader.id = some (some (.failed error), s')) : Fails s caller error s'

/-- Things happen, but nobody begins to read. -/
inductive Idle (s : Watch settings P) : Watch settings P → Prop
  | refl : Idle s s
  | step {s' s'' : Watch settings P} : Idle s s' → Session.Step (alone settings P) s' s'' →
      s''.next = s'.next → Idle s s''

theorem Fails.step {s s' : Watch settings P} {caller : Scope} {error : ReadError}
    (fails : s.Fails caller error s') : Session.Step (alone settings P) s s' := by
  cases fails with
  | @atOnce choice _ enters h =>
      have hstep : Session.Step (alone settings P) s _ := .startRead choice enters
      rwa [h] at hstep
  | later mem began h => exact .stepRead h

/-- A read that comes back with an error takes its last turn. -/
theorem Fails.turn {s s' : Watch settings P} {caller : Scope} {error : ReadError}
    (hs : s.Distinct) (alone : s.readers.length ≤ 1) (fails : s.Fails caller error s') :
    ∃ choice point id, s.TakesTurn s' choice point id (.ended (.failed error)) ∧
      ∀ read, point = .inside read → s.journal.callers[read.number]? = some caller := by
  cases fails with
  | @atOnce choice _ enters h =>
      rcases takesTurn_startRead enters h with ⟨progress, hreply, takes⟩
      obtain rfl := Progress.eq_failed hreply.symm
      refine ⟨choice, .outside caller, s.next, takes, ?_⟩
      rintro read ⟨⟩
  | @later choice reader _ mem began h =>
      have hone : s.readers = [reader] := by
        rcases List.length_eq_one_iff.1
          (Nat.le_antisymm alone (List.length_pos_of_mem mem)) with ⟨only, honly⟩
        rw [honly] at mem ⊢
        rw [List.mem_singleton.1 mem]
      rcases takesTurn_stepRead hs hone h with ⟨progress, hreply, takes⟩
      obtain rfl := Progress.eq_failed hreply.symm
      refine ⟨choice, .inside reader.read, reader.id, takes, ?_⟩
      rintro read ⟨⟩
      exact began

/-- The end of the only read, with an error, hands out nothing. -/
theorem TakesTurn.owed_of_failed {s s' : Watch settings P} {choice : Choice}
    {point : (Layer.watched settings P).Point} {id : Nat} {error : ReadError}
    (takes : s.TakesTurn s' choice point id (.ended (.failed error))) :
    s'.owed = s.retried + min 1 s'.queued.length := by
  have hissued := (Port.recorded_turn_issued takes.turn).1
  have hretried : s'.retried = s.retried := by
    rw [retried, retried, journal, hissued]
    simp [Progress.issued]
  have hnone : s'.readers = [] := takes.readers'
  rw [owed, hnone, hretried]
  rfl

/-- A read that comes back with nothing has a caller who has cancelled, or leaves something
to serve, which is then owed. -/
theorem Fails.cancelled_or_owed (candid : P.Candid) (steady : P.Steady) {s s' : Watch settings P}
    (hs : s.Distinct) (halert : s.Alert) (hcalled : s.Called) {caller : Scope} {error : ReadError}
    (fails : s.Fails caller error s') (retryable : error.isRetryable) :
    s'.readers = [] ∧ (s'.ambient.scopes.IsCancelled caller ∨
      s'.queued ≠ [] ∧ s'.owed = s.owed + 1) := by
  rcases fails.turn hs halert.alone with ⟨choice, point, id, takes, began⟩
  refine ⟨takes.readers', ?_⟩
  have hturn := Layer.turn_cases (Port.recorded_turn_failed takes.turn)
  have hgrows := (hturn.grows steady.recorded).scopes
  cases point with
  | outside outer =>
      have hawaits : Layer.Awaits s.layer.backlog.interrupt s.ambient.scopes outer
          (.outside outer : (Layer.port settings P.recorded).Point) := rfl
      rcases hturn.fails_cases candid.recorded retryable hawaits with
        ⟨scope, hnone, -⟩ | ⟨_, _, _, _, hnone, -⟩
      · cases hnone
      · cases hnone
  | inside read =>
      have hmem : (⟨id, read⟩ : Reader (Layer.watched settings P)) ∈ s.readers :=
        takes.readers ▸ List.mem_singleton_self _
      rcases halert.awaits _ hmem with ⟨outer, houter, hawaits⟩
      obtain rfl : caller = outer := Option.some.inj ((began read rfl).symm.trans houter)
      rcases hturn.fails_cases candid.recorded retryable hawaits with
        ⟨scope, hscope, hcancelled, hbacklog⟩ | ⟨outer, scope, entry, due, hpoint, hcancelled⟩
      · rcases hcancelled with hown | ⟨outer, hmember, hflag⟩
        · have hqueued : s'.queued = s.queued := congrArg Backlog.entries hbacklog
          have hentries : s'.queued ≠ [] := hqueued ▸ hcalled.entries _ hmem scope hscope hown
          have hnone : read.value.entries = [] := Layer.Reading.entries_of_scope hscope
          have hpos := List.length_pos_iff.2 hentries
          refine .inr ⟨hentries, ?_⟩
          rw [takes.owed_of_failed, takes.owed_eq]
          simp only [Layer.ahead, Port.Point.plain, hnone, List.length_nil]
          omega
        · -- The scope is inside its caller's, so one around it is that, or around that.
          rw [(hawaits.of_scope hscope).2, List.mem_cons] at hmember
          refine .inl (.mono ?_ hgrows)
          rcases hmember with rfl | hmember
          · exact .inl hflag
          · exact .inr ⟨outer, hmember, hflag⟩
      · have hown := hcalled.caller _ hmem outer scope entry due (Port.Point.inside.inj hpoint)
        obtain rfl : outer = caller := Option.some.inj (hown.symm.trans houter)
        exact .inl (hcancelled.mono hgrows)

/-- While nobody reads, nothing leaves the backlog. -/
theorem Idle.queued {source : P.State} {a : Ambient} {s t : Watch settings P}
    (hs : Session.Reaches (alone settings P) (Watch.start settings source a) s)
    (hnone : s.readers = []) (idle : s.Idle t) :
    Session.Reaches (alone settings P) (Watch.start settings source a) t ∧ t.readers = [] ∧
      ∃ more, t.queued = s.queued ++ more := by
  induction idle with
  | refl => exact ⟨hs, hnone, [], by simp⟩
  | @step t t' _ hstep hnext ih =>
      rcases ih with ⟨hreach, hreaders, more, hqueued⟩
      have hmove := hstep.move (hreach.distinct (Session.distinct_new _ _))
      refine ⟨hreach.step hstep, ?_⟩
      have hfiled := filed_of_reaches (fun _ hf => hf) hreach
      rcases turns_or_aside hmove hfiled (by simp [hreaders]) with
        ⟨choice, point, id, progress, takes⟩ | haside
      · -- A read that takes a turn is in progress, or begins under a new number.
        cases point with
        | outside caller => exact absurd (takes.next.symm.trans hnext) (Nat.succ_ne_self _)
        | inside read =>
            exact absurd (hreaders.symm.trans takes.readers) (by simp [Port.Point.readers])
      · refine ⟨haside.readers.trans hreaders, more ++ t.pushes t', ?_⟩
        rw [haside.queued, hqueued, List.append_assoc]

/-- A read that comes back with nothing, although its caller has not cancelled, leaves
something to serve, and the next read serves it. -/
def Rereads (s : Watch settings P) : Prop :=
  ∀ caller error s', s.Fails caller error s' → error.isRetryable →
    ¬s'.ambient.scopes.IsCancelled caller →
    s'.queued ≠ [] ∧ ∀ t, s'.Idle t → ∃ entry rest, t.queued = entry :: rest ∧
      ∀ next, (alone settings P).enters t next → ∀ pushed reply u, t.Call next pushed reply u →
        t.Serves next entry rest pushed reply u ∧ t.Untouched u

/-- No read comes back for nothing, in any undisturbed session. -/
theorem Undisturbed.rereads (candid : P.Candid) (steady : P.Steady) {source : P.State}
    {a : Ambient} {s : Watch settings P} (h : Undisturbed source a s) : s.Rereads := by
  intro caller error s' fails retryable hopen
  have hreach := h.reaches
  have hdistinct := hreach.distinct (Session.distinct_new _ _)
  have halert := alert_of_reaches steady hreach
  rcases fails.cancelled_or_owed candid steady hdistinct halert (h.called steady) retryable with
    ⟨hnone, hcancelled | ⟨hqueued, -⟩⟩
  · exact absurd hcancelled hopen
  · refine ⟨hqueued, fun t idle => ?_⟩
    rcases idle.queued (hreach.step fails.step) hnone with ⟨ht, -, more, hmore⟩
    rcases List.exists_cons_of_ne_nil hqueued with ⟨entry, rest, hhead⟩
    have hhead' : t.queued = entry :: (rest ++ more) := by rw [hmore, hhead, List.cons_append]
    exact ⟨entry, rest ++ more, hhead', fun next enters _ _ _ call =>
      call.serves ht enters hhead'⟩

end Watch

end Redelivery
