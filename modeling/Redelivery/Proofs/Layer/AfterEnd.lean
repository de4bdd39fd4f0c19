import Redelivery.Proofs.Layer.EndOfStream
import Redelivery.Proofs.Layer.Interruption

/-!
# After the end of the source

A layer holds the end of its source back from the moment at which the source tells of it
while batches are pending, and it never forgets that.  From then on it does not read from
the source, whatever the source answers when it is connected again.  A read still serves
what has failed; with nothing to serve, it tells the end once nothing is pending, and until
then comes back only for its caller or for a failure that was reported meanwhile.

Main definitions:

* `Layer.Flags`: what a step does to the flag that the source has ended.
* `Watch.Fitting`: where the only read stands fits the flag.
* `Watch.PrivateCall`: a read from its beginning on, whose scope nobody else cancels.
* `Watch.Ends`: what becomes of a read that finds nothing to serve.

Main results:

* Theorem `Layer.Turn.flags`, `Watch.flags_move`: the flag is set at the source's word only.
* Theorem `Watch.PrivateCall.ends`: a read that finds nothing to serve waits, or tells the
  end, or comes back for a reason.
* Theorem `Watch.sticks`: the end of the source sticks, in any session with one reader.
-/

namespace Redelivery

namespace Layer

variable {settings : Settings} {P : Port}

/-! ## The flag -/

/-- Where a read stands fits the flag: it asks the port inside before that has ended, and
looks whether all is acknowledged after. -/
def Reading.Fits (closed : Bool) : Reading P → Prop
  | .asking .. => closed = false
  | .draining .. => closed = true
  | .armed _ | .pacing .. => True

/-- Before a turn, where the read stands fits the flag. -/
def Fits (layer : Layer P) : (port settings P).Point → Prop
  | .outside _ => True
  | .inside read => Reading.Fits layer.inputClosed read

/-- The port inside has told of its end just now, with batches pending. -/
structure HearsEnd (layer layer' : Layer P.recorded) : Prop where
  pending : 0 < layer.pending
  same : layer'.pending = layer.pending
  told : ∃ before exchange, layer'.source = layer.source ++ (before ++ [exchange]) ∧
    exchange.SaysClosed

/-- What a step does to the flag that the port inside has ended. -/
inductive Flags (layer layer' : Layer P.recorded) : Prop
  /-- The flag stays, and where it is set, no read of the port inside begins. -/
  | keeps (same : layer'.inputClosed = layer.inputClosed)
      (quiet : layer.inputClosed = true → layer'.source.callers = layer.source.callers)
  | sets (opened : layer.inputClosed = false) (closed : layer'.inputClosed = true)
      (hears : layer.HearsEnd layer')

/-- A flag that is set stays set, and no read of the port inside begins. -/
theorem Flags.stays {layer layer' : Layer P.recorded} (flags : layer.Flags layer')
    (closed : layer.inputClosed = true) :
    layer'.inputClosed = true ∧ layer'.source.callers = layer.source.callers := by
  cases flags with
  | keeps same quiet => exact ⟨same.trans closed, quiet closed⟩
  | sets opened => exact absurd closed (by simp [opened])

/-- The port inside is asked only before it has ended. -/
theorem Asks.opened {layer : Layer P} {point : (port settings P).Point} {scope : Scope}
    {inside : P.Point} (asks : Asks settings layer point scope inside) (fits : layer.Fits point) :
    layer.inputClosed = false := by
  cases asks with
  | begins opened => exact opened
  | goesOn => exact fits

/-- What a read of the port inside ends with is the last thing that is written down. -/
theorem told_of_turn {choice : Choice} {inside : P.recorded.Point} {a a' : Ambient}
    {s s' : Recorded P}
    (turn : P.recorded.turn choice inside a s = some (.ended (.failed .closed), a', s')) :
    ∃ before exchange, s'.journal = s.journal ++ (before ++ [exchange]) ∧
      exchange.SaysClosed := by
  rcases Port.recorded_turn turn with ⟨plain, -, hplain, hjournal⟩
  obtain rfl : plain = .ended (.failed .closed) := by
    cases plain with
    | going read => cases hplain
    | ended answer =>
        cases answer with
        | delivered | died => cases hplain
        | failed error =>
            cases hplain
            rfl
  exact ⟨_, _, hjournal, .ended _⟩

/-- A read that finds the end either hears of it just now, or the flag was set before. -/
theorem AtEnd.flags {choice : Choice} {a a' : Ambient} {layer : Layer P.recorded}
    {point : (port settings P.recorded).Point} {scope : Scope} {inner : Recorded P}
    (atEnd : AtEnd settings choice a layer point scope a' inner) (fits : layer.Fits point) :
    layer.inputClosed = true ∧ inner = layer.inner ∨
      layer.inputClosed = false ∧ ∃ before exchange,
        inner.journal = layer.source ++ (before ++ [exchange]) ∧ exchange.SaysClosed := by
  cases atEnd with
  | flagged closed => exact .inl ⟨closed, rfl⟩
  | looked => exact .inl ⟨fits, rfl⟩
  | answered asks turn => exact .inr ⟨asks.opened fits, told_of_turn turn⟩

/-- A turn of a read sets the flag only as the port inside tells of its end. -/
theorem Turn.flags {choice : Choice} {a a' : Ambient} {layer layer' : Layer P.recorded}
    {point : (port settings P.recorded).Point} {progress : Going P.recorded}
    (turn : Turn settings choice a layer point progress a' layer') (fits : layer.Fits point) :
    layer.Flags layer' := by
  cases turn with
  | arms | redelivers | breaks | paces | resumes | putsBack | interrupted =>
      exact .keeps rfl fun _ => rfl
  | asks asks | receives asks | fails asks | dies asks =>
      exact .keeps rfl fun closed => absurd closed (by simp [asks.opened fits])
  | ends atEnd drained =>
      refine .keeps rfl fun closed => ?_
      rcases atEnd.flags fits with ⟨-, rfl⟩ | ⟨opened, -⟩
      · rfl
      · exact absurd closed (by simp [opened])
  | holds atEnd pending =>
      rcases atEnd.flags fits with ⟨closed, rfl⟩ | ⟨opened, told⟩
      · exact .keeps closed.symm fun _ => rfl
      · exact .sets opened rfl ⟨pending, rfl, told⟩

/-- A read that goes on stands where it fits the flag. -/
theorem Turn.fits {choice : Choice} {a a' : Ambient} {layer layer' : Layer P}
    {point : (port settings P).Point} {read : Reading P}
    (turn : Turn settings choice a layer point (.going read) a' layer') (fits : layer.Fits point) :
    read.Fits layer'.inputClosed := by
  cases turn with
  | arms | paces => trivial
  | asks asks turn => exact asks.opened fits
  | holds atEnd pending => rfl

/-- A report leaves the flag, and no read of the port inside begins. -/
theorem settle_flags {layer layer' : Layer P.recorded} {held : Held (Numbered P.Receipt)}
    {outcome : Outcome} {settlement : Settlement} {a a' : Ambient}
    (settles : settle held outcome a layer = (settlement, a', layer')) :
    layer'.inputClosed = layer.inputClosed ∧ layer'.source.callers = layer.source.callers := by
  cases outcome with
  | processed =>
      rcases settle_processed settles with ⟨-, -, hclosed, hsource⟩
      exact ⟨hclosed, by simp [hsource, Exchange.callers]⟩
  | failed failure =>
      rcases settle_failed settles with ⟨-, -, hclosed, hsource⟩
      exact ⟨hclosed, by rw [hsource]⟩

/-- Connecting sets the flag only as the port inside tells of its end. -/
theorem connect_flags {caller : Scope} {a a' : Ambient} {layer layer' : Layer P.recorded}
    {result : Except ReadError Unit} (connects : connect caller a layer = (result, a', layer')) :
    layer.Flags layer' := by
  rcases connect_cases caller a layer with ⟨found, b, inner, hinner, hcases⟩
  rcases Port.recorded_connect hinner with ⟨-, hsource⟩
  have hcallers : inner.journal.callers = layer.source.callers := by
    simp [hsource, source, Exchange.callers]
  rcases hcases with ⟨rfl, hpending, heq⟩ | ⟨-, heq⟩
  · obtain rfl : _ = layer' := congrArg (fun x => x.2.2) (heq.symm.trans connects)
    cases hflag : layer.inputClosed with
    | true => exact .keeps hflag.symm fun _ => hcallers
    | false => exact .sets hflag rfl ⟨hpending, rfl, [], _, hsource, .connected caller⟩
  · obtain rfl : _ = layer' := congrArg (fun x => x.2.2) (heq.symm.trans connects)
    exact .keeps rfl fun _ => hcallers

/-- A read that asks or waits, and goes on, does so in the same scope. -/
theorem Turn.scope_eq {choice : Choice} {a a' : Ambient} {layer layer' : Layer P}
    {read read' : Reading P} {scope : Scope}
    (turn : Turn settings choice a layer (.inside read) (.going read') a' layer')
    (hscope : read.scope? = some scope) :
    read'.scope? = some scope ∧ layer'.backlog = layer.backlog := by
  have hasks : ∀ {own : Scope} {inside : P.Point},
      Asks settings layer (.inside read) own inside → own = scope := by
    intro own inside asks
    cases asks with
    | begins | goesOn => exact Option.some.inj hscope
  cases turn with
  | asks asks turn => exact ⟨congrArg some (hasks asks), rfl⟩
  | holds atEnd pending =>
      refine ⟨congrArg some ?_, rfl⟩
      cases atEnd with
      | flagged | looked => exact Option.some.inj hscope
      | answered asks turn => exact hasks asks

/-- A read that asks or waits, and ends after the port inside has: it tells the end with
nothing pending, or its scope is cancelled. -/
theorem Turn.ends_cases {choice : Choice} {a a' : Ambient} {layer layer' : Layer P.recorded}
    {read : Reading P.recorded} {answer : Answer (Held (Numbered P.Receipt))} {scope : Scope}
    (turn : Turn settings choice a layer (.inside read) (.ended answer) a' layer')
    (hscope : read.scope? = some scope) (fits : read.Fits layer.inputClosed)
    (closed : layer'.inputClosed = true) :
    answer = .failed .closed ∧ layer'.pending ≤ 0 ∨
      answer = .failed .timeout ∧ a.scopes.IsCancelled scope ∧ a' = a.cancel scope := by
  cases turn with
  | resumes | putsBack => cases hscope
  | receives asks | fails asks | dies asks => exact absurd closed (by simp [asks.opened fits])
  | ends atEnd drained => exact .inl ⟨rfl, drained⟩
  | interrupted cancelled =>
      obtain rfl := Option.some.inj hscope
      exact .inr ⟨rfl, cancelled, rfl⟩

end Layer

/-! ## Sessions with one reader -/

namespace Watch

variable {settings : Settings} {P : Port}

/-- There is at most one read, and where it stands fits the flag. -/
structure Fitting (s : Watch settings P) : Prop where
  alone : s.readers.length ≤ 1
  fits : ∀ reader ∈ s.readers, reader.read.value.Fits s.layer.inputClosed

theorem fitting_start (source : P.State) (a : Ambient) : (start settings source a).Fitting where
  alone := Nat.zero_le _
  fits _ h := absurd h List.not_mem_nil

/-- Where the read stands that takes a turn fits the flag. -/
theorem Fitting.point {s : Watch settings P} (h : s.Fitting)
    {point : (Layer.watched settings P).Point} {id : Nat}
    {before after : List (Reader (Layer.watched settings P))}
    (readers : s.readers = before ++ point.readers id ++ after) : s.layer.Fits point.plain := by
  cases point with
  | outside caller => trivial
  | inside read => exact h.fits ⟨id, read⟩ (by simp [readers, Port.Point.readers])

/-- A move sets the flag only as the source tells of its end. -/
theorem flags_move {s s' : Watch settings P} (move : s.Move (alone settings P) s')
    (h : s.Fitting) : s.layer.Flags s'.layer := by
  cases move with
  | turns enters readers turn =>
      rcases Port.recorded_turn turn with ⟨plain, hturn, -, -⟩
      exact (Layer.turn_cases hturn).flags (h.point readers)
  | reports deliveries settles =>
      rcases Port.recorded_settle settles with ⟨hsettles, -⟩
      rcases Layer.settle_flags hsettles with ⟨hclosed, hcallers⟩
      exact .keeps hclosed fun _ => hcallers
  | connects enters connects =>
      rcases Port.recorded_connect connects with ⟨hconnects, -⟩
      exact Layer.connect_flags hconnects
  | closes closes =>
      rcases Port.recorded_close closes with ⟨hcloses, -⟩
      rcases Layer.close_source hcloses with ⟨-, -, hclosed, hsource⟩
      exact .keeps hclosed fun _ => by simp [hsource, Exchange.callers]
  | changes hown =>
      rcases hown with ⟨g, rfl⟩
      exact .keeps rfl fun _ => rfl
  | elapses grows => exact .keeps rfl fun _ => rfl

/-- The only read keeps standing where it fits the flag. -/
theorem fitting_move {s s' : Watch settings P} (move : s.Move (alone settings P) s')
    (h : s.Fitting) : s'.Fitting := by
  cases move with
  | @turns choice point id before after progress a state enters readers turn =>
      rcases Session.only_reader h.alone (fun caller hpoint => (enters caller hpoint).1.1)
        readers with ⟨rfl, rfl⟩
      refine ⟨Session.length_readers_after id progress, ?_⟩
      intro reader hreader
      rcases Port.recorded_turn turn with ⟨plain, hturn, rfl, -⟩
      cases plain with
      | going read =>
          obtain rfl : reader = ⟨id, ⟨point.number s.journal, read⟩⟩ := by
            simpa [Reader.after, Progress.numbered] using hreader
          exact (Layer.turn_cases hturn).fits (h.point readers)
      | ended answer => cases answer <;> simp [Reader.after, Progress.numbered] at hreader
  | reports deliveries settles =>
      rcases Port.recorded_settle settles with ⟨hsettles, -⟩
      refine ⟨h.alone, fun reader hreader => ?_⟩
      have hfits := h.fits reader hreader
      rwa [← (Layer.settle_flags hsettles).1] at hfits
  | connects enters connects =>
      have hnone : s.readers = [] := enters.1
      exact ⟨h.alone, fun reader hreader => absurd (hnone ▸ hreader) List.not_mem_nil⟩
  | closes closes =>
      rcases Port.recorded_close closes with ⟨hcloses, -⟩
      refine ⟨h.alone, fun reader hreader => ?_⟩
      have hfits := h.fits reader hreader
      rwa [← (Layer.close_source hcloses).2.2.1] at hfits
  | changes hown =>
      rcases hown with ⟨g, rfl⟩
      exact ⟨h.alone, h.fits⟩
  | elapses grows => exact ⟨h.alone, h.fits⟩

theorem fitting_of_reaches {source : P.State} {a : Ambient} {s : Watch settings P}
    (h : Session.Reaches (alone settings P) (start settings source a) s) : s.Fitting := by
  refine h.induct (motive := Fitting) (Session.distinct_new _ _) (fitting_start source a) ?_
  exact fun s s' hs hmove => fitting_move hmove hs

/-- Once the flag is set, it stays, and no read of the source begins any more. -/
theorem stays_of_fitting {s t : Watch settings P} (hs : s.Distinct) (h : s.Fitting)
    (closed : s.layer.inputClosed = true) (reaches : Session.Reaches (alone settings P) s t) :
    t.layer.inputClosed = true ∧ t.source.callers = s.source.callers := by
  have hall : t.Fitting ∧ t.layer.inputClosed = true ∧ t.source.callers = s.source.callers := by
    refine reaches.induct (motive := fun t => Fitting t ∧ (layer t).inputClosed = true ∧
      (Watch.source t).callers = s.source.callers) hs ⟨h, closed, rfl⟩ ?_
    rintro t t' ⟨hfitting, hclosed, hcallers⟩ hmove
    rcases (flags_move hmove hfitting).stays hclosed with ⟨hclosed', hcallers'⟩
    exact ⟨fitting_move hmove hfitting, hclosed', hcallers'.trans hcallers⟩
  exact hall.2

/-! ## A read that finds nothing to serve -/

/-- A read that began in a session, and whose own scope neither the source nor anybody else
around the layer cancels: the entries that failures have pushed since, the reply if the read
has ended, and the session then. -/
inductive PrivateCall (s₀ : Watch settings P) (caller : Scope) :
    List (Entry (Numbered P.Receipt)) → Option Reply → Watch settings P → Prop
  | begins (choice : Choice) :
      PrivateCall s₀ caller [] (s₀.startRead choice caller).1 (s₀.startRead choice caller).2
  /-- Something else happens while the read is in progress. -/
  | waits {pushed : List (Entry (Numbered P.Receipt))} {s s' : Watch settings P} :
      PrivateCall s₀ caller pushed none s → Session.Step (alone settings P) s s' →
        s'.readers = s.readers → s.Spares s' →
          PrivateCall s₀ caller (pushed ++ s.pushes s') none s'
  | goesOn {pushed : List (Entry (Numbered P.Receipt))} {s s' : Watch settings P}
      {choice : Choice} {reply : Option Reply} : PrivateCall s₀ caller pushed none s →
        s.stepRead choice s₀.next = some (reply, s') → s.Spares s' →
          PrivateCall s₀ caller pushed reply s'

/-- It is a read from its beginning on. -/
theorem PrivateCall.call {s₀ s : Watch settings P} {caller : Scope}
    {pushed : List (Entry (Numbered P.Receipt))} {reply : Option Reply}
    (h : s₀.PrivateCall caller pushed reply s) : s₀.Call caller pushed reply s := by
  induction h with
  | begins choice => exact .begins choice
  | waits _ hstep same _ ih => exact .waits ih hstep same
  | goesOn _ hstep _ ih => exact .goesOn ih hstep

/-- A read asks or waits in a scope of its own, inside its caller's.  If that scope is itself
cancelled, something has failed since the read began. -/
structure Waits (s₀ : Watch settings P) (caller : Scope)
    (pushed : List (Entry (Numbered P.Receipt))) (s : Watch settings P) : Prop where
  reader : ∃ number read, s.readers = [⟨s₀.next, number, read⟩] ∧
    read.scope? = some s.layer.backlog.interrupt
  around : s.layer.backlog.interrupt.around = caller.id :: caller.around
  spared : pushed = [] → s.ambient.scopes.flag s.layer.backlog.interrupt.id = false

/-- What becomes of a read that finds nothing to serve, once the source has ended. -/
inductive Ends (s₀ : Watch settings P) (caller : Scope)
    (pushed : List (Entry (Numbered P.Receipt))) : Option Reply → Watch settings P → Prop
  | waits {s : Watch settings P} (waits : s₀.Waits caller pushed s) :
      Ends s₀ caller pushed none s
  /-- The end is told, with nothing pending. -/
  | closes {s : Watch settings P} (pending : s.layer.pending ≤ 0) :
      Ends s₀ caller pushed (some (.failed .closed)) s
  /-- The caller has cancelled, or something has failed since the read began. -/
  | timesOut {s : Watch settings P}
      (why : s.ambient.scopes.IsCancelled caller ∨ pushed ≠ []) :
      Ends s₀ caller pushed (some (.failed .timeout)) s

/-- A read that begins with nothing to serve arms a scope of its own. -/
theorem waits_startRead {s : Watch settings P} {caller : Scope}
    (enters : (alone settings P).enters s caller) (nothing : s.queued = []) (choice : Choice) :
    (s.startRead choice caller).1 = none ∧ s.Waits caller [] (s.startRead choice caller).2 := by
  rcases hstart : s.startRead choice caller with ⟨reply, s'⟩
  rcases takesTurn_startRead enters hstart with ⟨progress, rfl, takes⟩
  rcases Port.recorded_turn takes.turn with ⟨plain, hturn, rfl, -⟩
  have hreaders := takes.readers'
  rcases s' with ⟨a, ⟨journal', layer'⟩, readers, deliveries, next⟩
  cases Layer.turn_cases hturn with
  | arms empty =>
      refine ⟨rfl, ⟨_, _, hreaders, rfl⟩, rfl, fun _ => ?_⟩
      simp [Ambient.childScope, Scopes.child, Scopes.flag]
  | redelivers head | breaks head | paces head => exact absurd (nothing.symm.trans head) (by simp)
  | asks asks | receives asks | fails asks | dies asks => cases asks
  | ends atEnd | holds atEnd =>
      cases atEnd with
      | answered asks => cases asks

/-- A read goes on to wait while something else happens. -/
theorem Waits.aside {s₀ s s' : Watch settings P} {caller : Scope}
    {pushed : List (Entry (Numbered P.Receipt))} (h : s₀.Waits caller pushed s)
    (aside : s.Aside s') (spared : s.Spared s') :
    s₀.Waits caller (pushed ++ s.pushes s') s' where
  reader := by rw [aside.readers, aside.interrupt]; exact h.reader
  around := by rw [aside.interrupt]; exact h.around
  spared := by
    intro hnone
    rcases List.append_eq_nil_iff.1 hnone with ⟨hbefore, hpushes⟩
    have hqueued : s'.queued = s.queued := by simpa [hpushes] using aside.queued
    rcases h.reader with ⟨number, read, hreaders, hscope⟩
    have hmem : ⟨s₀.next, number, read⟩ ∈ s.readers := hreaders ▸ List.mem_singleton_self _
    rw [aside.interrupt, spared hqueued (by rw [aside.readers]) _ hmem _ hscope]
    exact h.spared hbefore

/-- A read that goes on waits in the same scope. -/
theorem Waits.goesOn {s₀ s s' : Watch settings P} {caller : Scope}
    {pushed : List (Entry (Numbered P.Receipt))} (h : s₀.Waits caller pushed s) {choice : Choice}
    {number number' : Nat} {read read' : Layer.Reading P.recorded}
    (readers : s.readers = [⟨s₀.next, number, read⟩])
    (readers' : s'.readers = [⟨s₀.next, number', read'⟩])
    (turn : Layer.Turn settings choice s.ambient s.layer (.inside read) (.going read')
      s'.ambient s'.layer)
    (spared : s.Spared s') : s₀.Waits caller pushed s' := by
  have hscope : read.scope? = some s.layer.backlog.interrupt := by
    rcases h.reader with ⟨n, found, hfound, hscope⟩
    obtain ⟨-, rfl⟩ : number = n ∧ read = found := by simpa using readers.symm.trans hfound
    exact hscope
  rcases turn.scope_eq hscope with ⟨hscope', hbacklog⟩
  have hinterrupt : s'.layer.backlog.interrupt = s.layer.backlog.interrupt :=
    congrArg Backlog.interrupt hbacklog
  have hqueued : s'.queued = s.queued := congrArg Backlog.entries hbacklog
  have hids : s'.readers.map Reader.id = s.readers.map Reader.id := by simp [readers, readers']
  have hmem : ⟨s₀.next, number, read⟩ ∈ s.readers := readers ▸ List.mem_singleton_self _
  refine ⟨⟨number', read', readers', hinterrupt ▸ hscope'⟩, hinterrupt ▸ h.around, ?_⟩
  intro hnone
  rw [hinterrupt, spared hqueued hids _ hmem _ hscope]
  exact h.spared hnone

/-- A step that leaves the only read in progress lets it wait on. -/
theorem Waits.step {s₀ s s' : Watch settings P} {caller : Scope}
    {pushed : List (Entry (Numbered P.Receipt))} (h : s₀.Waits caller pushed s)
    (move : s.Move (alone settings P) s') (filed : s.Filed) (same : s'.readers = s.readers)
    (spared : s.Spared s') : s₀.Waits caller (pushed ++ s.pushes s') s' := by
  rcases h.reader with ⟨number, read, hreaders, -⟩
  rcases turns_or_aside move filed (by simp [hreaders]) with
    ⟨choice, point, id, progress, takes⟩ | haside
  · rcases Port.recorded_turn takes.turn with ⟨plain, hturn, rfl, hjournal⟩
    have hpushes : s.pushes s' = [] := by simp [pushes_of_append hjournal]
    have hbefore := hreaders.symm.trans takes.readers
    have hafter := takes.readers'.symm.trans (same.trans hreaders)
    cases point with
    | outside caller => cases hbefore
    | inside found =>
        obtain ⟨rfl, rfl⟩ : s₀.next = id ∧ ⟨number, read⟩ = found := by
          simpa [Port.Point.readers] using hbefore
        cases plain with
        | ended answer => cases answer <;> cases hafter
        | going read' =>
            rw [hpushes, List.append_nil]
            exact h.goesOn hreaders takes.readers' (Layer.turn_cases hturn) spared
  · exact h.aside haside spared

/-- A read that goes on waits in the same scope, and once the source has ended it comes back
only to tell the end, or for a reason. -/
theorem Waits.stepRead {s₀ s s' : Watch settings P} {caller : Scope}
    {pushed : List (Entry (Numbered P.Receipt))} (h : s₀.Waits caller pushed s)
    (hs : s.Distinct) (fitting : s.Fitting) {choice : Choice} {reply : Option Reply}
    (step : s.stepRead choice s₀.next = some (reply, s')) (spared : s.Spared s')
    (closed : reply = none ∨ s'.layer.inputClosed = true) : s₀.Ends caller pushed reply s' := by
  rcases h.reader with ⟨number, read, hreaders, hscope⟩
  rcases takesTurn_stepRead hs hreaders step with ⟨progress, rfl, takes⟩
  rcases Port.recorded_turn takes.turn with ⟨plain, hturn, rfl, -⟩
  have hturn := Layer.turn_cases hturn
  cases plain with
  | going read' => exact .waits (h.goesOn hreaders takes.readers' hturn spared)
  | ended answer =>
      have hfits := fitting.fits ⟨s₀.next, number, read⟩ (by simp [hreaders])
      have hclosed : s'.layer.inputClosed = true := by
        rcases closed with hnone | hclosed
        · cases answer <;> cases hnone
        · exact hclosed
      rcases hturn.ends_cases hscope hfits hclosed with
        ⟨rfl, hpending⟩ | ⟨rfl, hcancelled, hambient⟩
      · exact .closes hpending
      · refine .timesOut ?_
        rcases hcancelled with hown | ⟨id, hid, hflag⟩
        · refine .inr fun hnone => ?_
          rw [h.spared hnone] at hown
          cases hown
        · -- The scope is inside its caller's, so one around it is that, or around that.
          rw [h.around, List.mem_cons] at hid
          rw [hambient]
          refine .inl (.mono ?_ (Scopes.grows_cancel _ _))
          rcases hid with rfl | hid
          · exact .inl hflag
          · exact .inr ⟨id, hid, hflag⟩

/-- A read that begins with nothing to serve waits, and once the source has ended it comes
back only to tell the end, or for a reason. -/
theorem PrivateCall.ends {source : P.State} {a : Ambient} {s₀ s : Watch settings P}
    (h₀ : Session.Reaches (alone settings P) (start settings source a) s₀) {caller : Scope}
    (enters : (alone settings P).enters s₀ caller) (nothing : s₀.queued = [])
    {pushed : List (Entry (Numbered P.Receipt))} {reply : Option Reply}
    (call : s₀.PrivateCall caller pushed reply s)
    (closed : reply = none ∨ s.layer.inputClosed = true) : s₀.Ends caller pushed reply s := by
  induction call with
  | begins choice =>
      rcases waits_startRead enters nothing choice with ⟨hreply, hwaits⟩
      rw [hreply]
      exact .waits hwaits
  | @waits pushed s s' before step same spares ih =>
      have hreach := before.call.reaches h₀ enters
      have hmove := step.move (hreach.distinct (Session.distinct_new _ _))
      have hfiled := filed_of_reaches (fun _ hf => hf) hreach
      cases ih (.inl rfl) with
      | waits hwaits =>
          exact .waits (hwaits.step hmove hfiled same (spared_of_move hmove spares))
  | @goesOn pushed s s' choice reply before step spares ih =>
      have hreach := before.call.reaches h₀ enters
      have hdistinct := hreach.distinct (Session.distinct_new _ _)
      have hstep : Session.Step (alone settings P) s s' := .stepRead step
      have hspared := spared_of_move (hstep.move hdistinct) spares
      cases ih (.inl rfl) with
      | waits hwaits =>
          exact hwaits.stepRead hdistinct (fitting_of_reaches hreach) step hspared closed

/-- The end of the source sticks.

* The flag that the source has ended is set only as the source tells of its end, to somebody
  who connects or reads, while batches are pending.
* Once set it stays, and no read of the source begins any more.
* From then on a read that comes back has served the first entry of the backlog, or there was
  none and it tells the end, or comes back with nothing: then its caller has cancelled, or
  something has failed since it began. -/
structure Sticks (s : Watch settings P) : Prop where
  sets : ∀ s' : Watch settings P, s.Step (alone settings P) s' → s'.layer.inputClosed = true →
    s.layer.inputClosed = true ∨ s.layer.HearsEnd s'.layer
  stays : s.layer.inputClosed = true → ∀ t : Watch settings P,
    Session.Reaches (alone settings P) s t →
      t.layer.inputClosed = true ∧ t.source.callers = s.source.callers
  returns : ∀ caller, (alone settings P).enters s caller → ∀ pushed reply (t : Watch settings P),
    s.PrivateCall caller pushed reply t → t.layer.inputClosed = true →
      (∃ entry rest, s.queued = entry :: rest ∧ s.Serves caller entry rest pushed reply t) ∨
        s.queued = [] ∧ s.Ends caller pushed reply t

/-- The end of the source sticks, in any session with one reader. -/
theorem sticks {source : P.State} {a : Ambient} {s : Watch settings P}
    (h : Session.Reaches (alone settings P) (start settings source a) s) : s.Sticks where
  sets s' step closed := by
    have hmove := step.move (h.distinct (Session.distinct_new _ _))
    cases flags_move hmove (fitting_of_reaches h) with
    | keeps same => exact .inl (same.symm.trans closed)
    | sets _ _ hears => exact .inr hears
  stays closed _ reaches :=
    stays_of_fitting (h.distinct (Session.distinct_new _ _)) (fitting_of_reaches h) closed reaches
  returns caller enters pushed reply t call closed := by
    cases hqueued : s.queued with
    | nil => exact .inr ⟨rfl, call.ends h enters hqueued (.inr closed)⟩
    | cons entry rest => exact .inl ⟨entry, rest, rfl, (call.call.serves h enters hqueued).1⟩

/-! ## A run

The batch of the source is read and not reported on.  The next read is told of the end, which
is held back; then a failure of the batch is reported, and the read comes back with nothing. -/

namespace Tour

/-- The next read has begun, with nothing to serve. -/
def armed : Watch .default Memory.port := (delivered.startRead choice caller).2

/-- It asks the source. -/
def asking : Watch .default Memory.port := armed.goOn choice 1

/-- The source has ended, and the end is held back. -/
def held : Watch .default Memory.port := asking.goOn choice 1

/-- The batch fails while the end is held back. -/
def heldFailed : Watch .default Memory.port := held.told 0 (.failed failure)

/-- The read comes back. -/
def calledBack : Watch .default Memory.port := heldFailed.goOn choice 1

theorem reached_delivered : Reached (.finite [batch]) delivered :=
  ((reached_read (.finite [batch])).goOn choice 0).goOn choice 0

theorem call_held : delivered.PrivateCall caller [] none held := by
  have hbegun : delivered.PrivateCall caller [] none armed := .begins choice
  have hasks : armed.stepRead choice delivered.next = some (none, asking) := rfl
  have hholds : asking.stepRead choice delivered.next = some (none, held) := rfl
  refine .goesOn (.goesOn hbegun hasks ?_) hholds ?_
  · exact fun _ => spared_of_flags fun _ => rfl
  · exact fun _ => spared_of_flags fun _ => rfl

theorem call_calledBack :
    delivered.PrivateCall caller ([] ++ held.pushes heldFailed) (some (.failed .timeout))
      calledBack := by
  have hfails : held.report 0 (.failed failure) = some (.accepted, heldFailed) := rfl
  have hreturns : heldFailed.stepRead choice delivered.next =
      some (some (.failed .timeout), calledBack) := rfl
  have hqueued : heldFailed.queued.length ≠ held.queued.length := by decide
  refine .goesOn (.waits call_held (.report hfails) rfl ?_) hreturns fun _ _ hids => ?_
  · exact fun _ hsame => absurd (congrArg List.length hsame) hqueued
  · exact absurd (congrArg List.length hids) (by decide)

end Tour

/-- While the end is held back, a failure calls the read back that waits. -/
theorem sticks_tour : Tour.delivered.Sticks ∧ Tour.calledBack.layer.inputClosed = true ∧
    ∃ pushed, Tour.delivered.PrivateCall Tour.caller pushed (some (.failed .timeout))
      Tour.calledBack ∧ pushed ≠ [] :=
  ⟨sticks Tour.reached_delivered, rfl, _, Tour.call_calledBack, List.cons_ne_nil _ _⟩

end Watch

end Redelivery
