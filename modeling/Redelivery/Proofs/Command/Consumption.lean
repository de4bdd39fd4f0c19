import Redelivery.Proofs.Command.Supply
import Redelivery.Proofs.Consumer.Report
import Redelivery.Proofs.Consumer.Undeterred

/-!
# What the consumer of the command does

The consumer of the command never meets an error: its source connects, keeps the connection and
accepts every report.  It reads no more only when all that was pushed is read and the input is
closed.

Main definitions:

* `Exchange.Smooth`: nothing went wrong.
* `Consumer.Stocked`: what the consumer knows of its source.

Main results:

* Theorem `Consumer.Deed.stocked`: whatever the loop or a task does keeps it so.
* Theorem `Consumer.Stocked.push`, `Consumer.Stocked.close`, `Consumer.Stocked.elapse`: what
  happens around it does as well.
-/

namespace Redelivery

/-! ## Smooth journals -/

/-- Nobody failed to connect or lost the connection, and every report was accepted. -/
structure Exchange.Smooth {ρ : Type} (exchange : Exchange ρ) : Prop where
  reachable : exchange.isUnreachable = false
  accepted : ∀ number outcome settlement,
    exchange = .reported number outcome settlement → settlement = .accepted

namespace Journal

variable {ρ : Type} {journal : Journal ρ}

theorem countP_isUnreachable (smooth : ∀ exchange ∈ journal, exchange.Smooth) :
    journal.countP Exchange.isUnreachable = 0 := by
  rw [List.countP_eq_zero]
  intro exchange hmem hunreachable
  simp [(smooth exchange hmem).reachable] at hunreachable

theorem countP_isRejected (smooth : ∀ exchange ∈ journal, exchange.Smooth) :
    journal.countP Exchange.isRejected = 0 := by
  rw [List.countP_eq_zero]
  intro exchange hmem hrejected
  cases exchange with
  | reported number outcome settlement =>
      obtain rfl := (smooth _ hmem).accepted number outcome settlement rfl
      cases hrejected
  | connected | closed | began | ended => cases hrejected

/-- If every report was accepted, those succeed that report a batch as processed. -/
theorem countP_succeeds (smooth : ∀ exchange ∈ journal, exchange.Smooth) :
    journal.countP Exchange.succeeds =
      journal.reports.countP fun report => report.2.isProcessed := by
  induction journal with
  | nil => rfl
  | cons exchange journal ih =>
      have hrest := ih fun other hother => smooth other (List.mem_cons_of_mem _ hother)
      have hreports : reports (exchange :: journal) = exchange.reports ++ reports journal :=
        List.flatMap_cons
      rw [hreports, List.countP_append, List.countP_cons, hrest]
      cases exchange with
      | reported number outcome settlement =>
          obtain rfl := (smooth _ List.mem_cons_self).accepted number outcome settlement rfl
          rw [Exchange.reports, List.countP_singleton, Nat.add_comm]
          rfl
      | connected | closed | began | ended => simp [Exchange.succeeds, Exchange.reports]

end Journal

namespace Consumer

open Command

variable {settings : Settings} {W : Processor} {pushed : List Batch} {closed : Bool}

/-- The source of a consumer. -/
abbrev memory (c : Consumer (Layer.watched settings Memory.port) W) : Memory :=
  Command.memory (Watch.layer c.session).inner

/-- What a consumer knows of its source. -/
structure Stocked (pushed : List Batch) (closed : Bool)
    (c : Consumer (Layer.watched settings Memory.port) W) : Prop where
  supplies : Supplies pushed closed (Watch.layer c.session)
  opened : c.phase ≠ .finished → c.memory.shutDown = false
  ended : c.phase.over → c.memory.batches = [] ∧ closed = true
  smooth : ∀ exchange ∈ Watch.journal c.session, exchange.Smooth

/-- A consumer that reads on, and has written down nothing that went wrong, is stocked. -/
theorem Stocked.more {c c' : Consumer (Layer.watched settings Memory.port) W}
    (h : c.Stocked pushed closed) (supplies : Supplies pushed closed (Watch.layer c'.session))
    (opened : c'.phase ≠ .finished → c'.memory.shutDown = false)
    (ended : c'.phase.over → c'.memory.batches = [] ∧ closed = true)
    {more : Journal (Held (Numbered Memory.port.Receipt))}
    (journal : Watch.journal c'.session = Watch.journal c.session ++ more)
    (smooth : ∀ exchange ∈ more, exchange.Smooth) : c'.Stocked pushed closed where
  supplies := supplies
  opened := opened
  ended := ended
  smooth exchange hmem := by
    rw [journal, List.mem_append] at hmem
    rcases hmem with hold | hnew
    · exact h.smooth exchange hold
    · exact smooth exchange hnew

/-- A turn of a read that has not lost the connection is smooth. -/
theorem smooth_turn {P : Port} {point : P.Point} {number : Nat}
    {plain : Progress P.Read P.Receipt}
    (keeps : ∀ reason, plain ≠ .ended (.failed (.connection reason))) :
    ∀ exchange ∈ point.exchanges ++ plain.exchanges number, exchange.Smooth := by
  intro exchange hmem
  rcases List.mem_append.1 hmem with hbegan | hended
  · cases point with
    | outside caller =>
        obtain rfl := List.mem_singleton.1 hbegan
        exact ⟨rfl, nofun⟩
    | inside read => cases hbegan
  · cases plain with
    | going read => cases hended
    | ended answer =>
        obtain rfl := List.mem_singleton.1 hended
        refine ⟨?_, nofun⟩
        rcases answer with ⟨batch, receipt⟩ | error | reason
        · rfl
        · cases error with
          | connection reason => exact absurd rfl (keeps reason)
          | closed | timeout | cancelled => rfl
        · rfl

/-- A turn of the read leaves a consumer stocked. -/
theorem Stocked.afterRead {c : Consumer (Layer.watched settings Memory.port) W}
    (h : c.Stocked pushed closed) (opened : c.memory.shutDown = false)
    {session : Watch settings Memory.port} {choice : Choice}
    {point : (Layer.watched settings Memory.port).Point} {id : Nat}
    {progress : Progress (Layer.watched settings Memory.port).Read
      (Layer.watched settings Memory.port).Receipt}
    (turn : (Layer.watched settings Memory.port).turn choice point c.session.ambient
      c.session.state = some (progress, session.ambient, session.state))
    (fits : (Watch.layer c.session).Fits point.plain) :
    (c.afterRead id session progress.reply).Stocked pushed closed := by
  rcases Port.recorded_turn turn with ⟨plain, hturn, rfl, hjournal⟩
  rcases h.supplies.turn opened (Layer.turn_cases hturn) fits with ⟨hsupplies, hopened, honest⟩
  have hphase := phase_afterRead c id session (point.number c.session.journal)
    c.session.journal.issued.length plain
  have hsession := session_afterRead c id session
    (plain.numbered (point.number c.session.journal) c.session.journal.issued.length).reply
  refine h.more ?_ (fun _ => ?_) (fun hover => ?_) (hsession ▸ hjournal) (smooth_turn honest.keeps)
  · rw [hsession]
    exact hsupplies
  · rw [memory, hsession]
    exact hopened
  · rw [memory, hsession]
    exact honest.closes (Progress.eq_closed_of_leads (hphase ▸ hover))

/-- Whatever the loop or a task does, a consumer that nobody stops stays stocked. -/
theorem Deed.stocked {c c' : Consumer (Layer.watched settings Memory.port) W} (deed : Deed c c')
    (agrees : c.Agrees) (going : c.stopping = false) (fitting : Watch.Fitting c.session)
    (h : c.Stocked pushed closed) : c'.Stocked pushed closed := by
  have hreaders := agrees.readers
  cases deed with
  | stops between stopping => simp [going] at stopping
  | resumes phase =>
      exact ⟨h.supplies, fun _ => h.opened (by simp [phase]), by rintro ⟨⟩, h.smooth⟩
  | tallies | works => exact ⟨h.supplies, h.opened, h.ended, h.smooth⟩
  | @connects result session phase going connects =>
      rcases Port.recorded_connect (Session.connect_eq connects) with ⟨hconnects, hjournal⟩
      rcases h.supplies.connect (h.opened (by simp [phase])) hconnects with
        ⟨hsupplies, hopened, hresult⟩
      have hsession := session_afterConnect c session result
      have hphase := phase_afterConnect c session result
      refine h.more ?_ (fun _ => ?_) (fun hover => ?_) (hsession ▸ hjournal) ?_
      · rw [hsession]
        exact hsupplies
      · rw [memory, hsession]
        exact hopened
      · obtain rfl := Phase.eq_closed_of_connected (hphase ▸ hover)
        rw [memory, hsession]
        rcases hresult with hok | ⟨-, hended⟩
        · cases hok
        · exact hended
      · intro exchange hmem
        obtain rfl := List.mem_singleton.1 hmem
        rcases hresult with rfl | ⟨rfl, -⟩
        · exact ⟨rfl, by rintro _ _ _ ⟨⟩⟩
        · exact ⟨rfl, by rintro _ _ _ ⟨⟩⟩
  | @begins choice reply session phase going reads =>
      rw [phase] at hreaders
      rcases startRead_turn (List.map_eq_nil_iff.1 hreaders) reads with ⟨progress, turn, rfl, -⟩
      exact h.afterRead (h.opened (by simp [phase])) turn trivial
  | @reads choice id reply session phase reads =>
      rw [phase] at hreaders
      rcases List.map_eq_singleton_iff.1 hreaders with ⟨⟨own, read⟩, hone, rfl⟩
      rcases Session.stepRead_of_only agrees.distinct hone reads with
        ⟨progress, a, state, turn, rfl, rfl⟩
      have hfits : (Watch.layer c.session).Fits (.inside read.value) :=
        fitting.fits ⟨own, read⟩ (by simp [hone])
      have hturn : (Layer.watched settings Memory.port).turn choice (.inside read)
          c.session.ambient c.session.state = some (progress, a, state) := turn
      exact h.afterRead (h.opened (by simp [phase])) hturn hfits
  | @finishes result session phase endings tasks closes =>
      rcases Port.recorded_close (Session.close_eq closes) with ⟨hcloses, hjournal⟩
      rcases h.supplies.close hcloses with ⟨hsupplies, hbatches⟩
      have hended := h.ended (by simp [phase, Phase.over])
      refine h.more hsupplies (fun hlives => absurd rfl hlives)
        (fun _ => ⟨hbatches.trans hended.1, hended.2⟩) hjournal ?_
      · intro exchange hmem
        obtain rfl := List.mem_singleton.1 hmem
        exact ⟨rfl, by rintro _ _ _ ⟨⟩⟩
  | @reports number due job settlement session task passed reports =>
      rcases Session.report_eq_some reports with ⟨delivery, -, -, hsettle, -⟩
      rcases Port.recorded_settle hsettle with ⟨hsettles, hjournal⟩
      have hsupplies : Supplies pushed closed (Watch.layer (c.processed job)) := h.supplies
      rcases hsupplies.settle hsettles with ⟨hafter, hshut, hbatches, rfl⟩
      refine h.more hafter (fun hlives => hshut.trans (h.opened hlives))
        (fun hover => ?_) hjournal ?_
      · have hended := h.ended hover
        exact ⟨hbatches.trans hended.1, hended.2⟩
      · intro exchange hmem
        obtain rfl := List.mem_singleton.1 hmem
        exact ⟨rfl, by rintro _ _ _ ⟨⟩; rfl⟩

/-- A consumer stays stocked as its source changes, if the source goes on to be supplied, and
is not shut down. -/
theorem Stocked.outside {c : Consumer (Layer.watched settings Memory.port) W}
    (h : c.Stocked pushed closed) (a : Ambient) {g : Memory → Memory} {pushed' : List Batch}
    {closed' : Bool}
    (supplied : Supplied pushed' closed' (Watch.layer c.session).inputClosed
      ⟨Watch.source c.session, g c.memory⟩)
    (shutDown : (g c.memory).shutDown = c.memory.shutDown)
    (ended : c.phase.over → (g c.memory).batches = [] ∧ closed' = true) :
    (c.outside a g).Stocked pushed' closed' where
  supplies := supplied
  opened hlives := shutDown.trans (h.opened hlives)
  ended := ended
  smooth := h.smooth

/-- A batch is pushed. -/
theorem Stocked.push {c : Consumer (Layer.watched settings Memory.port) W}
    (h : c.Stocked pushed closed) (opened : closed = false) (a : Ambient) (batch : Batch) :
    (c.outside a (Memory.push · batch)).Stocked (pushed ++ [batch]) closed :=
  h.outside a (Supplied.push h.supplies opened batch) (c.memory.batches_push batch).1.shutDown
    fun hover => absurd (opened.symm.trans (h.ended hover).2) Bool.false_ne_true

/-- The input is closed. -/
theorem Stocked.close {c : Consumer (Layer.watched settings Memory.port) W}
    (h : c.Stocked pushed closed) :
    (c.outside c.session.ambient Memory.closeInput).Stocked pushed true :=
  h.outside c.session.ambient (Supplied.closeInput h.supplies) c.memory.same_closeInput.1.shutDown
    fun hover => ⟨c.memory.same_closeInput.2.trans (h.ended hover).1, rfl⟩

/-- Time passes. -/
theorem Stocked.elapse {c : Consumer (Layer.watched settings Memory.port) W}
    (h : c.Stocked pushed closed) (a : Ambient) : (c.outside a id).Stocked pushed closed :=
  h.outside a h.supplies rfl h.ended

end Consumer

end Redelivery
