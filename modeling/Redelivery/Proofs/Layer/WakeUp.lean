import Redelivery.Proofs.Layer.Watched
import Redelivery.Proofs.Source.Memory

/-!
# No missed wake-up

A read that finds the backlog empty arms its scope and goes on to wait inside.  The next
failure cancels that scope, and the reader comes back.  With one reader at a time no
failure can slip in between: whenever something is in the backlog, the scope that was
armed last is cancelled.  So a read that is left waiting waits rightly, with the backlog
empty and its caller's scope not cancelled.

Putting an entry back cancels nothing.  That is safe because the entry was taken from a
backlog that had some, and nobody has armed a scope since.

Main definitions:

* `Layer.Alert`: something in the backlog has cancelled the armed scope.
* `Layer.Reading.Awaits`: how a read in progress hangs on the armed scope.
* `Watch.Quiet`: no read can take a step.
* `Watch.Wakes`: no wake-up is missed.

Main results:

* Theorem `Layer.Turn.alert`: a turn of a read keeps the layer alert.
* Theorem `Watch.wakes`: no wake-up is missed, in any session with one reader.
-/

namespace Redelivery

namespace Layer

variable {settings : Settings} {P : Port}

/-- The scope that was armed last exists, and is cancelled if the backlog has entries. -/
structure Alert (layer : Layer P) (scopes : Scopes) : Prop where
  lt_size : layer.backlog.interrupt.id < scopes.flags.size
  flag : layer.backlog.entries ≠ [] → scopes.flag layer.backlog.interrupt.id = true

/-- How a read in progress hangs on the scope that was armed last.  While it asks the port
inside or waits for its end, that is its own scope, inside its caller's; while it waits
for the end of a delay, that is cancelled. -/
def Reading.Awaits (armed : Scope) (scopes : Scopes) (caller : Scope) : Reading P → Prop
  | .armed scope => scope = armed ∧ scope.around = caller.id :: caller.around
  | .asking scope read =>
      scope = armed ∧ scope.around = caller.id :: caller.around ∧ P.RunsIn scope read
  | .draining scope _ => scope = armed ∧ scope.around = caller.id :: caller.around
  | .pacing .. => scopes.flag armed.id = true

/-- The scope in which a read asks the port inside or waits for its end. -/
def Reading.scope? : Reading P → Option Scope
  | .armed scope => some scope
  | .asking scope _ => some scope
  | .draining scope _ => some scope
  | .pacing .. => none

/-- Where a read stands, it hangs on the scope that was armed last. -/
def Awaits (armed : Scope) (scopes : Scopes) (caller : Scope) :
    (port settings P).Point → Prop
  | .outside outer => outer = caller
  | .inside read => Reading.Awaits armed scopes caller read

theorem Alert.mono {layer layer' : Layer P} {scopes scopes' : Scopes} (h : layer.Alert scopes)
    (grows : scopes.Grows scopes') (interrupt : layer'.backlog.interrupt = layer.backlog.interrupt)
    (entries : layer'.backlog.entries ≠ [] → layer.backlog.entries ≠ []) :
    layer'.Alert scopes' := by
  constructor
  · rw [interrupt]
    exact Nat.lt_of_lt_of_le h.lt_size grows.size_le
  · intro hentries
    rw [interrupt]
    exact grows.flag _ (h.flag (entries hentries))

theorem Reading.Awaits.mono {read : Reading P} {armed caller : Scope} {scopes scopes' : Scopes}
    (h : read.Awaits armed scopes caller) (grows : scopes.Grows scopes') :
    read.Awaits armed scopes' caller := by
  cases read with
  | armed | asking | draining => exact h
  | pacing => exact grows.flag _ h

/-- The scope in which a read waits is the one that was armed last. -/
theorem Reading.Awaits.of_scope {read : Reading P} {armed caller : Scope} {scopes : Scopes}
    (h : read.Awaits armed scopes caller) {scope : Scope} (hscope : read.scope? = some scope) :
    scope = armed ∧ scope.around = caller.id :: caller.around := by
  cases read with
  | armed | draining =>
      obtain rfl := Option.some.inj hscope
      exact h
  | asking =>
      obtain rfl := Option.some.inj hscope
      exact ⟨h.1, h.2.1⟩
  | pacing => cases hscope

/-- A read that asks the port inside does so in the scope that was armed last. -/
theorem Asks.awaits {layer : Layer P} {point : (port settings P).Point} {scope : Scope}
    {inside : P.Point} (asks : Asks settings layer point scope inside) {armed caller : Scope}
    {scopes : Scopes} (h : Awaits armed scopes caller point) :
    scope = armed ∧ scope.around = caller.id :: caller.around := by
  cases asks with
  | begins => exact h
  | goesOn => exact ⟨h.1, h.2.1⟩

/-- If the port inside does not answer, its read goes on in the same scope. -/
theorem Asks.runsIn {layer : Layer P} {point : (port settings P).Point} {scope : Scope}
    {inside : P.Point} (asks : Asks settings layer point scope inside) {armed caller : Scope}
    {scopes : Scopes} (h : Awaits armed scopes caller point) {choice : Choice} {a a' : Ambient}
    {inner inner' : P.State} {read : P.Read}
    (turn : P.turn choice inside a inner = some (.going read, a', inner')) :
    P.RunsIn scope read := by
  cases asks with
  | begins => exact .start (Option.some.inj turn)
  | goesOn => exact .step h.2.2 turn

/-- A read that finds the end of the port inside is in the scope that was armed last. -/
theorem AtEnd.awaits {choice : Choice} {a a' : Ambient} {layer : Layer P}
    {point : (port settings P).Point} {scope : Scope} {inner : P.State}
    (atEnd : AtEnd settings choice a layer point scope a' inner) {armed caller : Scope}
    {scopes : Scopes} (h : Awaits armed scopes caller point) :
    scope = armed ∧ scope.around = caller.id :: caller.around := by
  cases atEnd with
  | flagged | looked => exact h
  | answered asks turn => exact asks.awaits h

/-! ## Growth -/

theorem HandsOut.grows {scope : Scope} {entry : Entry P.Receipt} {a a' : Ambient} {batch : Batch}
    {held : Held P.Receipt} (h : HandsOut scope entry a batch held a') : a.Grows a' := by
  cases h with
  | single => exact a.grows_cancel scope
  | several =>
      have hmint : a.Grows { a with mint := ⟨a.mint.contents, a.mint.groups + 1⟩ } :=
        ⟨Nat.le_refl _, .refl _, Nat.le_refl _, Nat.le_succ _⟩
      exact hmint.trans (Ambient.grows_cancel _ scope)

theorem AtEnd.grows (steady : P.Steady) {choice : Choice} {a a' : Ambient} {layer : Layer P}
    {point : (port settings P).Point} {scope : Scope} {inner : P.State}
    (atEnd : AtEnd settings choice a layer point scope a' inner) : a.Grows a' := by
  cases atEnd with
  | flagged | looked => exact .refl a
  | answered asks turn => exact steady.turn turn

/-- A turn of a read through a layer around a steady port takes nothing back. -/
theorem Turn.grows (steady : P.Steady) {choice : Choice} {a a' : Ambient} {layer layer' : Layer P}
    {point : (port settings P).Point} {progress : Going P}
    (turn : Turn settings choice a layer point progress a' layer') : a.Grows a' := by
  cases turn with
  | arms empty => exact a.grows_childScope _
  | redelivers head atOnce hands => exact (a.grows_childScope _).trans hands.grows
  | breaks head late next => exact (a.grows_childScope _).trans (Ambient.grows_cancel _ _)
  | paces head late next positive => exact a.grows_childScope _
  | resumes passed hands => exact hands.grows
  | putsBack cancelled => exact a.grows_cancel _
  | asks asks turn => exact steady.turn turn
  | receives asks turn hands => exact (steady.turn turn).trans hands.grows
  | fails asks turn opened => exact (steady.turn turn).trans (Ambient.grows_cancel _ _)
  | dies asks turn => exact (steady.turn turn).trans (Ambient.grows_cancel _ _)
  | ends atEnd drained => exact (atEnd.grows steady).trans (Ambient.grows_cancel _ _)
  | holds atEnd pending => exact atEnd.grows steady
  | interrupted cancelled => exact a.grows_cancel _

/-! ## A turn keeps the layer alert -/

/-- A turn of a read keeps the layer alert. -/
theorem Turn.alert (steady : P.Steady) {choice : Choice} {a a' : Ambient}
    {layer layer' : Layer P} {point : (port settings P).Point} {progress : Going P}
    (turn : Turn settings choice a layer point progress a' layer') (halert : layer.Alert a.scopes)
    {caller : Scope} (hawaits : Awaits layer.backlog.interrupt a.scopes caller point) :
    layer'.Alert a'.scopes := by
  have hgrows := (turn.grows steady).scopes
  cases turn with
  | arms empty => exact ⟨by simp [Ambient.childScope, Scopes.child], fun h => absurd rfl h⟩
  | redelivers head atOnce hands => exact halert.mono hgrows rfl (by simp [head])
  | breaks head late next => exact halert.mono hgrows rfl (by simp [head])
  | paces head late next positive => exact halert.mono hgrows rfl (by simp [head])
  | putsBack cancelled =>
      -- Nothing is cancelled here: the scope that was armed last has been all the while.
      exact ⟨Nat.lt_of_lt_of_le halert.lt_size hgrows.size_le, fun _ => hgrows.flag _ hawaits⟩
  | resumes passed hands => exact halert.mono hgrows rfl id
  | asks asks turn => exact halert.mono hgrows rfl id
  | receives asks turn hands => exact halert.mono hgrows rfl id
  | fails asks turn opened => exact halert.mono hgrows rfl id
  | dies asks turn => exact halert.mono hgrows rfl id
  | ends atEnd drained => exact halert.mono hgrows rfl id
  | holds atEnd pending => exact halert.mono hgrows rfl id
  | interrupted cancelled => exact halert.mono hgrows rfl id

/-- A read that goes on hangs on the scope that was armed last. -/
theorem Turn.awaits (steady : P.Steady) {choice : Choice} {a a' : Ambient}
    {layer layer' : Layer P} {point : (port settings P).Point} {read : Reading P}
    (turn : Turn settings choice a layer point (.going read) a' layer')
    (halert : layer.Alert a.scopes) {caller : Scope}
    (hawaits : Awaits layer.backlog.interrupt a.scopes caller point) :
    read.Awaits layer'.backlog.interrupt a'.scopes caller := by
  have hgrows := (turn.grows steady).scopes
  cases turn with
  | arms empty =>
      obtain rfl : _ = caller := hawaits
      exact ⟨rfl, rfl⟩
  | paces head late next positive => exact hgrows.flag _ (halert.flag (by simp [head]))
  | asks asks turn =>
      rcases asks.awaits hawaits with ⟨hscope, haround⟩
      exact ⟨hscope, haround, asks.runsIn hawaits turn⟩
  | holds atEnd pending => exact atEnd.awaits hawaits

/-- Only a read that begins with the backlog empty arms another scope, its own and new. -/
theorem Turn.interrupt_eq {choice : Choice} {a a' : Ambient} {layer layer' : Layer P}
    {point : (port settings P).Point} {progress : Going P}
    (turn : Turn settings choice a layer point progress a' layer') :
    layer'.backlog.interrupt = layer.backlog.interrupt ∨
      progress = .going (.armed layer'.backlog.interrupt) ∧
        layer'.backlog.interrupt.id = a.scopes.flags.size := by
  cases turn with
  | arms empty => exact .inr ⟨rfl, rfl⟩
  | redelivers | breaks | paces | resumes | putsBack | asks | receives | fails | dies | ends
  | holds | interrupted => exact .inl rfl

/-- A report arms no other scope. -/
theorem settle_interrupt {held : Held P.Receipt} {outcome : Outcome} {settlement : Settlement}
    {a a' : Ambient} {layer layer' : Layer P}
    (settles : settle held outcome a layer = (settlement, a', layer')) :
    layer'.backlog.interrupt = layer.backlog.interrupt := by
  cases outcome with
  | processed | failed =>
      rcases settles with ⟨rfl, rfl, rfl⟩
      rfl

/-- A report to a layer around a steady port takes nothing back. -/
theorem settle_grows (steady : P.Steady) {held : Held P.Receipt} {outcome : Outcome}
    {settlement : Settlement} {a a' : Ambient} {layer layer' : Layer P}
    (settles : settle held outcome a layer = (settlement, a', layer')) : a.Grows a' := by
  cases outcome with
  | processed =>
      have hgrows := steady.settle held.entry.receipt .processed a layer.inner
      rcases settles with ⟨rfl, rfl, rfl⟩
      exact hgrows
  | failed failure =>
      rcases settles with ⟨rfl, rfl, rfl⟩
      exact a.grows_cancel layer.backlog.interrupt

/-- A report keeps the layer alert: a failure cancels the scope that was armed last. -/
theorem settle_alert (steady : P.Steady) {held : Held P.Receipt} {outcome : Outcome}
    {settlement : Settlement} {a a' : Ambient} {layer layer' : Layer P}
    (settles : settle held outcome a layer = (settlement, a', layer'))
    (halert : layer.Alert a.scopes) : layer'.Alert a'.scopes := by
  have hgrows := (settle_grows steady settles).scopes
  cases outcome with
  | processed =>
      rcases settles with ⟨rfl, rfl, rfl⟩
      exact halert.mono hgrows rfl id
  | failed failure =>
      rcases settles with ⟨rfl, rfl, rfl⟩
      refine ⟨Nat.lt_of_lt_of_le halert.lt_size hgrows.size_le, fun _ => ?_⟩
      have hlt := halert.lt_size
      simp [Scopes.flag_cancel, hlt]

/-- Connecting leaves the backlog alone. -/
theorem connect_backlog {caller : Scope} {a a' : Ambient} {layer layer' : Layer P}
    {result : Except ReadError Unit}
    (connects : connect caller a layer = (result, a', layer')) :
    layer'.backlog = layer.backlog := by
  rcases connect_cases caller a layer with ⟨found, b, inner, -, ⟨-, -, heq⟩ | ⟨-, heq⟩⟩
  · rcases Prod.mk.inj (heq.symm.trans connects) with ⟨-, -, rfl⟩
    rfl
  · rcases Prod.mk.inj (heq.symm.trans connects) with ⟨-, -, rfl⟩
    rfl

/-- Connecting a layer around a steady port takes nothing back. -/
theorem connect_grows (steady : P.Steady) {caller : Scope} {a a' : Ambient}
    {layer layer' : Layer P} {result : Except ReadError Unit}
    (connects : connect caller a layer = (result, a', layer')) : a.Grows a' := by
  have hgrows := steady.connect caller a layer.inner
  rcases connect_cases caller a layer with ⟨found, b, inner, hinner, ⟨-, -, heq⟩ | ⟨-, heq⟩⟩
  · rw [hinner] at hgrows
    rcases Prod.mk.inj (heq.symm.trans connects) with ⟨-, rfl, -⟩
    exact hgrows
  · rw [hinner] at hgrows
    rcases Prod.mk.inj (heq.symm.trans connects) with ⟨-, rfl, -⟩
    exact hgrows

/-- Closing leaves the backlog alone. -/
theorem close_backlog {caller : Scope} {a a' : Ambient} {layer layer' : Layer P}
    {result : Except ReadError Unit} (closes : close caller a layer = (result, a', layer')) :
    layer'.backlog = layer.backlog := by
  rcases closes with ⟨rfl, rfl, rfl⟩
  rfl

/-- Closing a layer around a steady port takes nothing back. -/
theorem close_grows (steady : P.Steady) {caller : Scope} {a a' : Ambient}
    {layer layer' : Layer P} {result : Except ReadError Unit}
    (closes : close caller a layer = (result, a', layer')) : a.Grows a' := by
  have hgrows := steady.close caller a layer.inner
  rcases closes with ⟨rfl, rfl, rfl⟩
  exact hgrows

/-- A layer is as steady as the port inside. -/
theorem steady_port (steady : P.Steady) : (port settings P).Steady where
  turn turn := (turn_cases turn).grows steady
  connect _ _ _ := connect_grows steady rfl
  close _ _ _ := close_grows steady rfl
  settle _ _ _ _ := settle_grows steady rfl

/-- Around a prompt port, a read that can take no step is in a scope that is not
cancelled. -/
theorem not_isCancelled_of_blocked (prompt : P.Prompt) {read : Reading P} {a : Ambient}
    {layer : Layer P} {armed caller : Scope}
    (hawaits : read.Awaits armed a.scopes caller) {scope : Scope}
    (hscope : read.scope? = some scope)
    (blocked : ∀ choice, step settings choice read a layer = none) :
    ¬a.scopes.IsCancelled scope := by
  intro hcancelled
  cases read with
  | armed own =>
      have hblocked := blocked ⟨true, fun x _ => x⟩
      simp only [step] at hblocked
      split at hblocked <;> cases hblocked
  | asking own inner =>
      obtain rfl := Option.some.inj hscope
      rcases prompt own inner hawaits.2.2 a layer.inner hcancelled with ⟨choice, hstep⟩
      have hblocked := Option.map_eq_none_iff.1 (blocked choice)
      simp [hblocked] at hstep
  | pacing => cases hscope
  | draining own due =>
      obtain rfl := Option.some.inj hscope
      have hblocked := Option.map_eq_none_iff.1 (blocked ⟨true, fun x _ => x⟩)
      simp [Choice.waited, hcancelled] at hblocked

end Layer

/-! ## Sessions with one reader -/

namespace Watch

variable {settings : Settings} {P : Port}

/-- The layer is alert, and the only read hangs on the scope that was armed last. -/
structure Alert (s : Watch settings P) : Prop where
  layer : s.layer.Alert s.ambient.scopes
  alone : s.readers.length ≤ 1
  awaits : ∀ reader ∈ s.readers, ∃ caller,
    s.journal.callers[reader.read.number]? = some caller ∧
      reader.read.value.Awaits s.layer.backlog.interrupt s.ambient.scopes caller
  callers : ∀ caller ∈ s.journal.callers, s.OwnScope caller

theorem alert_start (source : P.State) (a : Ambient) : (start settings source a).Alert where
  layer := by
    refine ⟨?_, fun h => absurd rfl h⟩
    simp [start, Session.new, Layer.new, Backlog.empty, Ambient.freshScope, Scopes.fresh]
  alone := Nat.zero_le _
  awaits reader h := absurd h List.not_mem_nil
  callers caller h := absurd h List.not_mem_nil

/-- What leaves the armed scope, the reads and the callers as they are keeps the session
alert. -/
theorem Alert.mono {s s' : Watch settings P} (h : s.Alert)
    (layer : s'.layer.Alert s'.ambient.scopes) (grows : s.ambient.Grows s'.ambient)
    (interrupt : s'.layer.backlog.interrupt = s.layer.backlog.interrupt)
    (readers : s'.readers = s.readers) (callers : s'.journal.callers = s.journal.callers) :
    s'.Alert where
  layer := layer
  alone := readers ▸ h.alone
  awaits reader hreader := by
    rw [readers] at hreader
    rcases h.awaits reader hreader with ⟨caller, hcaller, hawaits⟩
    rw [callers, interrupt]
    exact ⟨caller, hcaller, hawaits.mono grows.scopes⟩
  callers caller hcaller id hid := by
    rw [callers] at hcaller
    rcases h.callers caller hcaller id hid with ⟨hlt, hne⟩
    rw [interrupt]
    exact ⟨Nat.lt_of_lt_of_le hlt grows.scopes.size_le, hne⟩

/-- What leaves the backlog as it is keeps the session alert. -/
theorem Alert.mono_backlog {s s' : Watch settings P} (h : s.Alert)
    (backlog : s'.layer.backlog = s.layer.backlog) (grows : s.ambient.Grows s'.ambient)
    (readers : s'.readers = s.readers) (callers : s'.journal.callers = s.journal.callers) :
    s'.Alert := by
  have hinterrupt := congrArg Backlog.interrupt backlog
  refine h.mono (h.layer.mono grows.scopes hinterrupt ?_) grows hinterrupt readers callers
  exact fun hentries => backlog ▸ hentries

/-- The caller of the read that takes a turn is in the journal, and the read hangs on the
scope that was armed last. -/
theorem Alert.awaits_point {s : Watch settings P} (h : s.Alert)
    {point : (Layer.watched settings P).Point} {id : Nat}
    {before after : List (Reader (Layer.watched settings P))}
    (readers : s.readers = before ++ point.readers id ++ after) :
    ∃ caller, (s.journal ++ point.plain.exchanges).callers[point.number s.journal]? = some caller ∧
      Layer.Awaits s.layer.backlog.interrupt s.ambient.scopes caller point.plain := by
  cases point with
  | outside caller =>
      refine ⟨caller, ?_, rfl⟩
      simp [Port.Point.plain, Port.Point.exchanges, Port.Point.number, Exchange.callers]
  | inside read =>
      have hmem : (⟨id, read⟩ : Reader (Layer.watched settings P)) ∈ s.readers := by
        simp [readers, Port.Point.readers]
      rcases h.awaits _ hmem with ⟨caller, hcaller, hawaits⟩
      refine ⟨caller, ?_, hawaits⟩
      simpa [Port.Point.plain, Port.Point.exchanges, Port.Point.number] using hcaller

/-- A turn of a read keeps a session with one reader alert. -/
theorem alert_turn {s : Watch settings P} (steady : P.Steady) (h : s.Alert) {choice : Choice}
    {point : (Layer.watched settings P).Point} {id : Nat}
    {before after : List (Reader (Layer.watched settings P))}
    {progress : Progress (Layer.watched settings P).Read (Layer.watched settings P).Receipt}
    {a : Ambient} {state : (Layer.watched settings P).State} (next : Nat)
    (enters : ∀ caller, point = .outside caller → s.readers = [] ∧ s.OwnScope caller)
    (readers : s.readers = before ++ point.readers id ++ after)
    (turn : (Layer.watched settings P).turn choice point s.ambient s.state =
      some (progress, a, state)) :
    Alert ⟨a, state, before ++ Reader.after id progress ++ after,
      s.deliveries ++ Delivery.after id progress, next⟩ := by
  rcases Session.only_reader h.alone (fun caller hpoint => (enters caller hpoint).1) readers with
    ⟨rfl, rfl⟩
  rcases h.awaits_point readers with ⟨caller, hcaller, hawaits⟩
  rcases Port.recorded_turn turn with ⟨plain, hturn, rfl, hjournal⟩
  have hcases := Layer.turn_cases hturn
  have hgrows := hcases.grows steady.recorded
  have hcallers : state.journal.callers = (s.journal ++ point.plain.exchanges).callers := by
    simp [hjournal]
  have hown : ∀ caller ∈ state.journal.callers, s.OwnScope caller := by
    intro caller hmem
    rw [hcallers, Journal.callers_append, List.mem_append] at hmem
    rcases hmem with hold | hnew
    · exact h.callers caller hold
    · cases point with
      | outside outer =>
          obtain rfl : caller = outer := by
            simpa [Port.Point.plain, Port.Point.exchanges, Exchange.callers] using hnew
          exact (enters caller rfl).2
      | inside read => simp [Port.Point.plain, Port.Point.exchanges, Journal.callers] at hnew
  refine ⟨hcases.alert steady.recorded h.layer hawaits, ?_, ?_, ?_⟩
  · cases plain with
    | going read => exact Nat.le_refl _
    | ended answer => cases answer <;> exact Nat.zero_le _
  · intro reader hreader
    cases plain with
    | going read =>
        obtain rfl : reader = ⟨id, ⟨point.number s.journal, read⟩⟩ := by
          simpa [Reader.after, Progress.numbered] using hreader
        exact ⟨caller, hcallers ▸ hcaller, hcases.awaits steady.recorded h.layer hawaits⟩
    | ended answer => cases answer <;> simp [Reader.after, Progress.numbered] at hreader
  · intro caller hmem number hnumber
    rcases hown caller hmem number hnumber with ⟨hlt, hne⟩
    refine ⟨Nat.lt_of_lt_of_le hlt hgrows.scopes.size_le, ?_⟩
    -- A scope that is armed now is new, and no caller can have had it.
    rcases hcases.interrupt_eq with hsame | ⟨-, hnew⟩
    · exact hsame ▸ hne
    · exact fun heq => Nat.ne_of_lt hlt (heq.trans hnew)

/-- Another scope is armed only by a read that begins, and it is that read's own and new. -/
theorem interrupt_move {D : Discipline (Layer.watched settings P)}
    (own : ∀ f, D.changes f → ChangesSource f) {s s' : Watch settings P} (move : s.Move D s') :
    s'.layer.backlog.interrupt = s.layer.backlog.interrupt ∨
      (∃ reader ∈ s'.readers, reader.read.value = .armed s'.layer.backlog.interrupt) ∧
        s'.layer.backlog.interrupt.id = s.ambient.scopes.flags.size := by
  cases move with
  | @turns choice point id before after progress a state enters readers turn =>
      rcases Port.recorded_turn turn with ⟨plain, hturn, rfl, -⟩
      rcases (Layer.turn_cases hturn).interrupt_eq with hsame | ⟨rfl, hnew⟩
      · exact .inl hsame
      · refine .inr ⟨⟨⟨id, ⟨point.number s.journal, .armed state.state.backlog.interrupt⟩⟩, ?_,
          rfl⟩, hnew⟩
        simp [Reader.after, Progress.numbered]
  | reports deliveries settles =>
      rcases Port.recorded_settle settles with ⟨hsettles, -⟩
      exact .inl (Layer.settle_interrupt hsettles)
  | connects enters connects =>
      rcases Port.recorded_connect connects with ⟨hconnects, -⟩
      exact .inl (congrArg Backlog.interrupt (Layer.connect_backlog hconnects))
  | closes closes =>
      rcases Port.recorded_close closes with ⟨hcloses, -⟩
      exact .inl (congrArg Backlog.interrupt (Layer.close_backlog hcloses))
  | changes hown =>
      rcases own _ hown with ⟨g, rfl⟩
      exact .inl rfl
  | elapses grows => exact .inl rfl

/-- Another scope is armed only by a read that begins. -/
theorem arms_of_move {D : Discipline (Layer.watched settings P)}
    (own : ∀ f, D.changes f → ChangesSource f) {s s' : Watch settings P} (move : s.Move D s') :
    s'.layer.backlog.interrupt = s.layer.backlog.interrupt ∨
      ∃ reader ∈ s'.readers, reader.read.value = .armed s'.layer.backlog.interrupt :=
  (interrupt_move own move).imp_right And.left

/-- A caller's own scope stays the caller's own. -/
theorem ownScope_move (steady : P.Steady) {D : Discipline (Layer.watched settings P)}
    (own : ∀ f, D.changes f → ChangesSource f) {s s' : Watch settings P} (move : s.Move D s')
    {caller : Scope} (h : s.OwnScope caller) : s'.OwnScope caller := by
  intro id hid
  rcases h id hid with ⟨hlt, hne⟩
  have hgrows := move.grows (Layer.steady_port steady.recorded).recorded
  refine ⟨Nat.lt_of_lt_of_le hlt hgrows.scopes.size_le, ?_⟩
  rcases interrupt_move own move with hsame | ⟨-, hnew⟩
  · exact hsame ▸ hne
  · exact fun heq => Nat.ne_of_lt hlt (heq.trans hnew)

/-- Every move keeps a session with one reader alert. -/
theorem alert_move {s s' : Watch settings P} (steady : P.Steady)
    (move : s.Move (alone settings P) s') (h : s.Alert) : s'.Alert := by
  cases move with
  | turns enters readers turn =>
      exact alert_turn steady h _ (fun caller hpoint => (enters caller hpoint).1) readers turn
  | @reports delivery outcome settlement before after a state deliveries settles =>
      rcases Port.recorded_settle settles with ⟨hsettles, hjournal⟩
      have hlayer := Layer.settle_alert steady.recorded hsettles h.layer
      have hgrows := Layer.settle_grows steady.recorded hsettles
      have hcallers : state.journal.callers = s.journal.callers := by
        simp [hjournal, Exchange.callers]
      exact h.mono hlayer hgrows (Layer.settle_interrupt hsettles) rfl hcallers
  | @connects caller result a state enters connects =>
      rcases Port.recorded_connect connects with ⟨hconnects, hjournal⟩
      have hgrows := Layer.connect_grows steady.recorded hconnects
      have hcallers : state.journal.callers = s.journal.callers := by
        simp [hjournal, Exchange.callers]
      exact h.mono_backlog (Layer.connect_backlog hconnects) hgrows rfl hcallers
  | @closes caller result a state closes =>
      rcases Port.recorded_close closes with ⟨hcloses, hjournal⟩
      have hgrows := Layer.close_grows steady.recorded hcloses
      have hcallers : state.journal.callers = s.journal.callers := by
        simp [hjournal, Exchange.callers]
      exact h.mono_backlog (Layer.close_backlog hcloses) hgrows rfl hcallers
  | changes hown =>
      rcases hown with ⟨g, rfl⟩
      exact h.mono_backlog rfl (.refl _) rfl rfl
  | elapses grows => exact h.mono_backlog rfl grows rfl rfl

theorem alert_of_reaches (steady : P.Steady) {source : P.State} {a : Ambient} {s : Watch settings P}
    (h : Session.Reaches (alone settings P) (start settings source a) s) : s.Alert := by
  refine h.induct (motive := Alert) (Session.distinct_new _ _) (alert_start source a) ?_
  exact fun s s' hs hmove => alert_move steady hmove hs

/-- No read can take a step, whatever chance decides. -/
def Quiet (s : Watch settings P) : Prop :=
  ∀ choice id, s.stepRead choice id = none

/-- No wake-up is missed.

* Something in the backlog has cancelled the scope that was armed last.
* Around a prompt source, where no read can take a step, one that waits inside or for the
  end has the backlog empty, and its caller's scope is not cancelled.
* The scope that was armed last is that of the read which began last with the backlog
  empty.
* A failure cancels that scope, and thereby none in which anybody has begun to read. -/
structure Wakes (s : Watch settings P) : Prop where
  interrupted : s.queued ≠ [] → s.ambient.scopes.IsCancelled s.layer.backlog.interrupt
  waits : P.Prompt → s.Quiet → ∀ reader ∈ s.readers, reader.read.value.scope?.isSome →
    s.queued = [] ∧ ∃ caller, s.journal.callers[reader.read.number]? = some caller ∧
      ¬s.ambient.scopes.IsCancelled caller
  armed : ∀ reader ∈ s.readers, ∀ scope, reader.read.value.scope? = some scope →
    scope = s.layer.backlog.interrupt
  arms : ∀ s' : Watch settings P, s.Step (alone settings P) s' →
    s'.layer.backlog.interrupt = s.layer.backlog.interrupt ∨
      ∃ reader ∈ s'.readers, reader.read.value = .armed s'.layer.backlog.interrupt
  fails : ∀ id failure settlement (s' : Watch settings P),
    s.report id (.failed failure) = some (settlement, s') →
    s'.ambient.scopes = s.ambient.scopes.cancel s.layer.backlog.interrupt ∧
      ∀ caller ∈ s.journal.callers,
        (s'.ambient.scopes.IsCancelled caller ↔ s.ambient.scopes.IsCancelled caller)

/-- Where a read waits in a session that is alert and quiet. -/
theorem Alert.waits {s : Watch settings P} (prompt : P.Prompt) (h : s.Alert) (quiet : s.Quiet)
    {reader : Reader (Layer.watched settings P)} (hreader : reader ∈ s.readers)
    (hscope : reader.read.value.scope?.isSome) :
    s.queued = [] ∧ ∃ caller, s.journal.callers[reader.read.number]? = some caller ∧
      ¬s.ambient.scopes.IsCancelled caller := by
  rcases Option.isSome_iff_exists.1 hscope with ⟨scope, hscope⟩
  rcases h.awaits reader hreader with ⟨caller, hcaller, hawaits⟩
  have hreaders : s.readers = [reader] := by
    rcases List.length_eq_one_iff.1
      (Nat.le_antisymm h.alone (List.length_pos_of_mem hreader)) with ⟨only, honly⟩
    rw [honly] at hreader ⊢
    rw [List.mem_singleton.1 hreader]
  have hblocked : ∀ choice,
      Layer.step settings choice reader.read.value s.ambient s.layer = none := by
    intro choice
    exact Option.map_eq_none_iff.1 (Session.step_eq_none_of_only hreaders (quiet choice reader.id))
  -- The read is blocked in its own scope, which is the armed one and inside its caller's.
  have hopen := Layer.not_isCancelled_of_blocked prompt.recorded hawaits hscope hblocked
  rcases hawaits.of_scope hscope with ⟨rfl, haround⟩
  refine ⟨?_, caller, hcaller, fun hcancelled => hopen (hcancelled.of_around haround)⟩
  by_contra hqueued
  exact hopen (.inl (h.layer.flag hqueued))

/-- A failure cancels the scope that was armed last and no other. -/
theorem report_failed {s s' : Watch settings P} {id : Nat} {failure : Failure}
    {settlement : Settlement} (h : s.report id (.failed failure) = some (settlement, s')) :
    s'.ambient.scopes = s.ambient.scopes.cancel s.layer.backlog.interrupt := by
  simp only [Session.report, Option.bind_eq_bind, Option.bind_eq_some_iff] at h
  rcases h with ⟨delivery, -, h⟩
  rcases Prod.mk.inj (Option.some.inj h) with ⟨-, rfl⟩
  rfl

/-- No wake-up is missed, in any session with one reader around a steady source. -/
theorem wakes (steady : P.Steady) {source : P.State} {a : Ambient} {s : Watch settings P}
    (h : Session.Reaches (alone settings P) (start settings source a) s) : s.Wakes := by
  have halert := alert_of_reaches steady h
  refine ⟨?_, ?_, ?_, ?_, ?_⟩
  · intro hqueued
    exact .inl (halert.layer.flag hqueued)
  · intro prompt quiet reader hreader hscope
    exact halert.waits prompt quiet hreader hscope
  · intro reader hreader scope hscope
    rcases halert.awaits reader hreader with ⟨caller, -, hawaits⟩
    exact (hawaits.of_scope hscope).1
  · intro s' hstep
    exact arms_of_move (fun _ hf => hf) (hstep.move (h.distinct (Session.distinct_new _ _)))
  · intro id failure settlement s' hreport
    have hscopes := report_failed hreport
    refine ⟨hscopes, ?_⟩
    intro caller hcaller
    rw [hscopes]
    exact Scopes.isCancelled_cancel_of_ne fun id hid => (halert.callers caller hcaller id hid).2

/-- After a failure the scope that was armed last is cancelled; with nothing to read, a
read waits, and rightly so. -/
theorem wakes_tour : Tour.failed.queued ≠ [] ∧ Tour.failed.Wakes ∧
    Memory.port.Prompt ∧ Tour.waiting.Quiet ∧ Tour.waiting.Wakes := by
  refine ⟨by decide, wakes Memory.steady_port Tour.reached_failed, Memory.prompt_port, ?_,
    wakes Memory.steady_port Tour.reached_waiting⟩
  intro choice id
  by_cases hid : 0 = id
  · subst hid
    rfl
  · have hnone : Tour.waiting.readers.find? (·.id = id) = none := by
      rw [List.find?_eq_none]
      intro reader hreader
      obtain rfl : reader = _ := List.mem_singleton.1 hreader
      exact fun h => hid (of_decide_eq_true h)
    simp only [Session.stepRead, hnone]
    rfl

end Watch

end Redelivery
