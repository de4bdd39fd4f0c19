import Redelivery.Proofs.Consumer.Watched
import Redelivery.Proofs.Layer.EndOfStream
import Redelivery.Proofs.Stack.Lockstep

/-!
# A consumer leaves nothing behind

A consumer reports on every delivery, whatever becomes of its processing, and it waits for
its tasks before it ends.  So in the end every batch that the source has handed out was
reported to the source once, as processed, or waits in the backlog.  If the consumer ends
because it was told of the end of the source, nothing waits.

This holds for one layer around the source and for several, of which the inner ones never
have anything in their backlogs.

Main definitions:

* `Consumer.stacked`: a consumer of a stack that nobody has used.
* `Consumer.ToldClosed`: the consumer was told that the source has ended.
* `Consumer.Settled`: what a consumer leaves behind.

Main results:

* Theorem `Consumer.Move.concludes`: what a consumer knows of the end of its source.
* Theorem `Consumer.settles_everything`: what a consumer leaves behind at its end.
-/

namespace Redelivery

/-- A report adds nothing to what is pending. -/
theorem Layer.settle_pending_le {P : Port} {held : Held P.Receipt} {outcome : Outcome}
    {settlement : Settlement} {a a' : Ambient} {layer layer' : Layer P}
    (settles : settle held outcome a layer = (settlement, a', layer')) :
    layer'.pending ≤ layer.pending := by
  cases outcome with
  | processed =>
      rcases settles with ⟨rfl, rfl, rfl⟩
      exact Int.sub_le_self _ (by decide)
  | failed failure =>
      rcases settles with ⟨rfl, rfl, rfl⟩
      exact Int.le_refl _

/-- With nothing read and nothing delivered, every batch is in the backlog or settled. -/
theorem Watch.place_of_idle {settings : Settings} {P : Port} {s : Watch settings P}
    (hx : s.accounts.Conserved) (returned : s.journal.broken = []) (readers : s.readers = [])
    (deliveries : s.deliveries = []) :
    (∀ n < s.source.issued.length,
      (s.queued.map Entry.number).count n + (s.source.reports.map Prod.fst).count n = 1) ∧
        s.layer.pending = s.queued.length := by
  have hnumbers := hx.numbers_eq returned
  have hheld : s.held = [] := by rw [held, deliveries, List.map_nil]
  have hpaced : s.paced = [] := by rw [paced, readers, List.flatMap_nil]
  constructor
  · intro n hn
    have hcount := s.count_numbers n
    have hmem : n ∈ Multiset.range s.accounts.received.length := Multiset.mem_range.2 hn
    rw [hnumbers, hheld, hpaced,
      Multiset.count_eq_one_of_mem (Multiset.nodup_range _) hmem] at hcount
    simpa using hcount.symm
  · have hcard := congrArg Multiset.card hnumbers
    have hpending := hx.pending_eq
    simp only [Accounts.numbers, accounts, Layer.accounts, elsewhere, hheld, hpaced,
      Multiset.card_add, Multiset.card_map, Multiset.coe_card, List.length_map,
      Multiset.card_range, List.length_nil] at hcard hpending
    simp only [queued]
    omega

namespace Consumer

variable {settings : Settings} {P : Port} {W : Processor}

/-! ## The end of the source -/

/-- A connect or a read has told the consumer that the source has ended. -/
def ToldClosed (c : Consumer (Layer.watched settings P) W) : Prop :=
  ∃ exchange ∈ Watch.journal c.session, exchange.SaysClosed

/-- A consumer knows its read and its deliveries, no read of it has broken off, and it does
not go on after it was told of the end. -/
structure Concludes (c : Consumer (Layer.watched settings P) W) : Prop where
  agrees : c.Agrees
  returned : c.phase ≠ .died → (Watch.journal c.session).broken = []
  told : c.ToldClosed →
    (c.phase = .joining ∨ c.phase = .finished) ∧ (Watch.layer c.session).pending ≤ 0

/-- While a consumer goes on, it was not told of the end. -/
theorem Concludes.not_told {c : Consumer (Layer.watched settings P) W} (h : c.Concludes)
    (joining : c.phase ≠ .joining) (finished : c.phase ≠ .finished) : ¬c.ToldClosed := by
  intro htold
  rcases (h.told htold).1 with hphase | hphase
  · exact joining hphase
  · exact finished hphase

theorem concludes_watching (source : P.State) (a : Ambient) (worker : W.State)
    (delay : Duration) : (watching settings source a worker delay).Concludes where
  agrees := (drives_watching source a worker delay).agrees
  returned _ := rfl
  told := by
    rintro ⟨exchange, hmem, -⟩
    cases hmem

/-- A consumer whose session changes in nothing that matters here concludes as before. -/
theorem Concludes.same {c c' : Consumer (Layer.watched settings P) W} (h : c.Concludes)
    (agrees : c'.Agrees) {more : Journal (Held (Numbered P.Receipt))}
    (journal : Watch.journal c'.session = Watch.journal c.session ++ more)
    (silent : ∀ exchange ∈ more, ¬exchange.SaysClosed) (unbroken : more.broken = [])
    (pending : (Watch.layer c'.session).pending ≤ (Watch.layer c.session).pending)
    (lives : c'.phase ≠ .died → c.phase ≠ .died)
    (ends : c.phase = .joining ∨ c.phase = .finished → c'.phase = .joining ∨ c'.phase = .finished) :
    c'.Concludes := by
  refine ⟨agrees, fun hlives => ?_, ?_⟩
  · rw [journal, Journal.broken_append, h.returned (lives hlives), unbroken, List.nil_append]
  · rintro ⟨exchange, hmem, hsays⟩
    rw [journal, List.mem_append] at hmem
    rcases hmem with hold | hnew
    · rcases h.told ⟨exchange, hold, hsays⟩ with ⟨hphase, hpending⟩
      exact ⟨ends hphase, pending.trans hpending⟩
    · exact absurd hsays (silent exchange hnew)

/-- A consumer whose journal and count stay as they are concludes as before. -/
theorem Concludes.still {c c' : Consumer (Layer.watched settings P) W} (h : c.Concludes)
    (agrees : c'.Agrees) (journal : Watch.journal c'.session = Watch.journal c.session)
    (pending : (Watch.layer c'.session).pending = (Watch.layer c.session).pending)
    (lives : c'.phase ≠ .died → c.phase ≠ .died)
    (ends : c.phase = .joining ∨ c.phase = .finished → c'.phase = .joining ∨ c'.phase = .finished) :
    c'.Concludes :=
  h.same agrees (journal.trans (List.append_nil _).symm)
    (fun _ hmem => absurd hmem List.not_mem_nil) rfl pending.le lives ends

/-- A consumer that is told of the end by a turn of its read reads no more, and nothing is
pending then. -/
theorem Concludes.afterRead {c : Consumer (Layer.watched settings P) W} (h : c.Concludes)
    {session : Watch settings P} {choice : Choice} {point : (Layer.watched settings P).Point}
    {id : Nat}
    {progress : Progress (Layer.watched settings P).Read (Layer.watched settings P).Receipt}
    (turn : (Layer.watched settings P).turn choice point c.session.ambient c.session.state =
      some (progress, session.ambient, session.state))
    (untold : ¬c.ToldClosed) (lives : c.phase ≠ .died)
    (agrees : (c.afterRead id session progress.reply).Agrees) :
    (c.afterRead id session progress.reply).Concludes := by
  rcases Port.recorded_turn turn with ⟨plain, hturn, rfl, hjournal⟩
  have hcases := Layer.turn_cases hturn
  refine ⟨agrees, fun hlives => ?_, ?_⟩
  · rw [session_afterRead, Watch.journal, hjournal, Journal.broken_append, h.returned lives,
      Journal.broken_append, Port.Point.broken_exchanges, Progress.broken_exchanges]
    cases plain with
    | going read => rfl
    | ended answer =>
        cases answer with
        | delivered batch held | failed error => rfl
        | died reason => exact absurd rfl hlives
  · rintro ⟨exchange, hmem, hsays⟩
    rw [session_afterRead, Watch.journal, hjournal, List.mem_append, List.mem_append] at hmem
    rcases hmem with hold | hbegan | hended
    · exact absurd ⟨exchange, hold, hsays⟩ untold
    · cases point with
      | outside caller =>
          obtain rfl := List.mem_singleton.1 hbegan
          cases hsays
      | inside read => cases hbegan
    · cases plain with
      | going read => cases hended
      | ended answer =>
          obtain rfl := List.mem_singleton.1 hended
          cases hsays with
          | ended =>
              rw [session_afterRead]
              exact ⟨.inl rfl, hcases.pending_le_zero⟩

/-- Whatever happens, a consumer concludes as it should. -/
theorem Move.concludes (processes : W.Steady) {changes : _ → Prop}
    (own : ∀ f, changes f → Watch.ChangesSource f) {c c' : Consumer (Layer.watched settings P) W}
    (move : Move changes c c') (h : c.Concludes) : c'.Concludes := by
  have hagrees := move.agrees processes h.agrees
  have hreaders := h.agrees.readers
  cases move with
  | changes hown =>
      rcases own _ hown with ⟨g, rfl⟩
      exact h.still hagrees rfl rfl id id
  | elapses grows => exact h.still hagrees rfl rfl id id
  | acts deed =>
  cases deed with
  | stops between stopping =>
      refine h.still hagrees rfl rfl ?_ fun _ => .inl rfl
      intro _ hdied
      simp [hdied, Phase.between] at between
  | resumes phase => exact h.still hagrees rfl rfl (by simp [phase]) (by simp [phase])
  | tallies | works => exact h.still hagrees rfl rfl id id
  | @connects result session phase going connects =>
      have huntold := h.not_told (by simp [phase]) (by simp [phase])
      rcases Port.recorded_connect (Session.connect_eq connects) with ⟨hconnects, hjournal⟩
      refine ⟨hagrees, fun _ => ?_, ?_⟩
      · rw [session_afterConnect, Watch.journal, hjournal, Journal.broken_append,
          h.returned (by simp [phase])]
        rfl
      · rintro ⟨exchange, hmem, hsays⟩
        rw [session_afterConnect, Watch.journal, hjournal, List.mem_append] at hmem
        rcases hmem with hold | hnew
        · exact absurd ⟨exchange, hold, hsays⟩ huntold
        · obtain rfl := List.mem_singleton.1 hnew
          cases hsays with
          | connected =>
              rw [session_afterConnect]
              exact ⟨.inl rfl, Layer.connect_pending_le_zero hconnects⟩
  | @begins choice reply session phase going reads =>
      rw [phase] at hreaders
      rcases startRead_turn (List.map_eq_nil_iff.1 hreaders) reads with ⟨progress, turn, rfl, -⟩
      exact h.afterRead turn (h.not_told (by simp [phase]) (by simp [phase])) (by simp [phase])
        hagrees
  | @reads choice id reply session phase reads =>
      rw [phase] at hreaders
      rcases stepRead_turn h.agrees.distinct hreaders reads with ⟨read, progress, turn, rfl, -⟩
      exact h.afterRead turn (h.not_told (by simp [phase]) (by simp [phase])) (by simp [phase])
        hagrees
  | @finishes result session phase endings tasks closes =>
      obtain ⟨rfl, rfl⟩ := Prod.mk.inj closes
      refine h.same hagrees rfl ?_ rfl (Int.le_refl _) (by simp [phase]) fun _ => .inr rfl
      intro exchange hmem
      obtain rfl := List.mem_singleton.1 hmem
      rintro ⟨⟩
  | @reports number due job settlement session task passed reports =>
      rcases Session.report_eq_some reports with ⟨delivery, -, -, hsettle, -⟩
      rcases Port.recorded_settle hsettle with ⟨hsettles, hjournal⟩
      refine h.same hagrees hjournal ?_ rfl (Layer.settle_pending_le hsettles) id id
      intro exchange hmem
      obtain rfl := List.mem_singleton.1 hmem
      rintro ⟨⟩

/-! ## What is left behind -/

/-- A source inside a stack may change by itself. -/
def ChangesInside (settings : Settings) (layers : List Settings)
    (f : (Layer.watched settings (Stack.port P.recorded layers)).State →
      (Layer.watched settings (Stack.port P.recorded layers)).State) : Prop :=
  ∃ g : P.State → P.State,
    f = Watch.changeSource (Stack.update (P := P.recorded) (fun s => ⟨s.journal, g s.state⟩) layers)

/-- A consumer that is about to connect a stack that nobody has used. -/
def stacked (settings : Settings) (layers : List Settings) (source : P.State) (a : Ambient)
    (worker : W.State) (delay : Duration) :
    Consumer (Layer.watched settings (Stack.port P.recorded layers)) W :=
  let inside := Stack.new (P := P.recorded) ⟨[], source⟩ layers a
  watching settings inside.1 inside.2 worker delay

variable {layers : List Settings}

/-- What has passed between the source inside the stack and the stack. -/
def sourceJournal (c : Consumer (Layer.watched settings (Stack.port P.recorded layers)) W) :
    Journal P.Receipt :=
  Recorded.journal (P := P) (Stack.base layers (Watch.layer c.session).inner.state)

/-- What waits in the backlog of the outermost layer, by the numbers that the source's journal
has for it. -/
def waiting (c : Consumer (Layer.watched settings (Stack.port P.recorded layers)) W) : List Nat :=
  (Watch.queued c.session).map fun entry => (Stack.conduit layers).number entry.receipt.value

/-- Nothing is read or processed any more, and every batch that the source has handed out is in
one place: it waits in the backlog of the outermost layer, or was reported to the source.  The
inner layers have nothing in their backlogs, and all layers agree on what is pending. -/
structure Settled (c : Consumer (Layer.watched settings (Stack.port P.recorded layers)) W) :
    Prop where
  readers_eq : c.session.readers = []
  deliveries_eq : c.session.deliveries = []
  place : ∀ n < c.sourceJournal.issued.length,
    c.waiting.count n + (c.sourceJournal.reports.map Prod.fst).count n = 1
  processed : ∀ report ∈ c.sourceJournal.reports,
    report.1 < c.sourceJournal.issued.length ∧ report.2 = .processed
  pending_eq : (Watch.layer c.session).pending = c.waiting.length
  inner : ∀ look ∈ Stack.stats layers (Watch.layer c.session).inner.state,
    look.queued = 0 ∧ look.inFlight = (Watch.layer c.session).pending

/-- The source's journal is the one inside the outermost layer, as far as numbers tell, and has
the numbers of what waits there. -/
theorem sourceJournal_eq {c : Consumer (Layer.watched settings (Stack.port P.recorded layers)) W}
    (inStep : Watch.InStep (Stack.conduit layers) c.session)
    (conserved : (Watch.accounts c.session).Conserved) :
    c.sourceJournal.issued.length = (Watch.source c.session).issued.length ∧
      c.sourceJournal.reports = (Watch.source c.session).reports ∧
        c.waiting = (Watch.queued c.session).map Entry.number := by
  have hjournal := Stack.journal_conduit layers (Watch.layer c.session).inner.state
  refine ⟨?_, ?_, List.map_congr_left fun entry hentry => ?_⟩
  · rw [sourceJournal, ← hjournal]
    exact inStep.inside.length_eq.symm
  · rw [sourceJournal, ← hjournal]
    exact inStep.inside.reports_eq.symm
  · have hlive : entry ∈ (Watch.accounts c.session).live :=
      Multiset.mem_add.2 (.inr (Multiset.mem_coe.2 hentry))
    rcases conserved.genuine entry hlive with ⟨batch, hgenuine⟩
    exact inStep.inside.number_eq _ _ hgenuine

/-- What is known of a consumer and its session at the end comes to this. -/
theorem settled_of_finished
    {c : Consumer (Layer.watched settings (Stack.port P.recorded layers)) W}
    (concludes : c.Concludes) (finished : c.phase = .finished)
    (inStep : Watch.InStep (Stack.conduit layers) c.session)
    (conserved : (Watch.accounts c.session).Conserved) : c.Settled := by
  have hreaders : c.session.readers = [] := by
    have hreads := concludes.agrees.readers
    rw [finished] at hreads
    exact List.map_eq_nil_iff.1 hreads
  have hdeliveries : c.session.deliveries = [] := by
    have htasks := concludes.agrees.tasks (by simp [finished])
    rw [(concludes.agrees.finished finished).1] at htasks
    exact List.map_eq_nil_iff.1 htasks.symm
  rcases Watch.place_of_idle conserved (concludes.returned (by simp [finished])) hreaders
    hdeliveries with ⟨hplace, hpending⟩
  rcases sourceJournal_eq inStep conserved with ⟨hlength, hreports, hwaiting⟩
  refine ⟨hreaders, hdeliveries, ?_, ?_, ?_, ?_⟩
  · rw [hlength, hreports, hwaiting]
    exact hplace
  · rw [hlength, hreports]
    exact fun report hreport =>
      ⟨conserved.settled_lt_length hreport, conserved.processed report hreport⟩
  · rw [hpending, hwaiting, List.length_map]
  · intro look hlook
    rcases Stack.stats_of_hollow layers _ inStep.inside.hollow look hlook with ⟨hqueued, hflight⟩
    refine ⟨hqueued, hflight.trans ?_⟩
    have hcount : (Watch.layer c.session).pending + (Watch.source c.session).reports.length =
        (Watch.source c.session).issued.length := conserved.pending_eq
    rw [Journal.unsettled, ← inStep.inside.length_eq, ← inStep.inside.reports_eq]
    exact Int.sub_eq_iff_eq_add.2 hcount.symm

/-- In the end the consumer has settled everything, and nothing waits if it was told of the end
of the source. -/
theorem settles_everything (processes : W.Steady) (source : P.State) (a : Ambient)
    (worker : W.State) (delay : Duration)
    {c : Consumer (Layer.watched settings (Stack.port P.recorded layers)) W}
    (h : Reaches (ChangesInside settings layers) (stacked settings layers source a worker delay) c)
    (finished : c.phase = .finished) :
    c.Settled ∧ (c.ToldClosed → (Watch.layer c.session).pending = 0 ∧ c.waiting = [] ∧
      ∀ n < c.sourceJournal.issued.length, (c.sourceJournal.reports.map Prod.fst).count n = 1) := by
  have hown : ∀ f, ChangesInside (P := P) settings layers f → Watch.ChangesSource f := by
    rintro _ ⟨g, rfl⟩
    exact ⟨_, rfl⟩
  have hthrough : ∀ f, ChangesInside (P := P) settings layers f →
      ∃ g, (Stack.conduit layers).Changes g ∧ f = Watch.changeSource g := by
    rintro _ ⟨g, rfl⟩
    exact ⟨_, Stack.changes_update g layers, rfl⟩
  have hconcludes : c.Concludes := h.induct (concludes_watching _ _ worker delay)
    fun _ _ hc hmove => hmove.concludes processes hown hc
  have hreach := h.session processes (D := ⟨fun _ _ => True, ChangesInside settings layers⟩)
    fun _ _ => trivial
  have hunused := Stack.hollow_new source layers a
  have hstep := Watch.inStep_of_reaches (Stack.sound_conduit layers) hthrough hunused.1 hunused.2
    hreach
  have hsettled := settled_of_finished hconcludes finished hstep
    (Watch.reachable_accounts hown hreach).conserved
  refine ⟨hsettled, fun htold => ?_⟩
  -- The end was told with nothing pending, so nothing waits.
  have hpending := hsettled.pending_eq
  have hzero := (hconcludes.told htold).2
  have hwaiting : c.waiting = [] := List.length_eq_zero_iff.1 (by omega)
  refine ⟨by rw [hpending, hwaiting]; rfl, hwaiting, fun n hn => ?_⟩
  simpa [hwaiting] using hsettled.place n hn

/-! ## Two runs

A stack of two layers has one batch, whose processing fails at first.  In one run shutdown is
requested meanwhile, in the other the batch is delivered again and the source ends. -/

namespace Tour

/-- What there is inside the outer layer. -/
abbrev inside : Port := Stack.port Memory.port.recorded [.default]

/-- A consumer of the stack. -/
def new : Consumer (Layer.watched .default inside) reluctant :=
  stacked .default [.default] opened (.start .epoch) false usualDelay

/-- The source ends. -/
def closes : Happening inside :=
  .change (Stack.update (P := Memory.port.recorded)
    (fun s => ⟨s.journal, Memory.closeInput s.state⟩) [.default])

/-- Shutdown is requested while the batch is processed. -/
def shutDown : Consumer (Layer.watched .default inside) reluctant :=
  List.foldl happen new
    [.loop, .loop, .loop, .loop, .loop, .task 0, .stop, .loop, .task 0, .loop, .loop]

/-- The batch is processed again, and the source ends. -/
def drained : Consumer (Layer.watched .default inside) reluctant :=
  List.foldl happen new
    [.loop, .loop, .loop, .loop, .loop, .task 0, .task 0, .loop, .task 1, .task 1, closes, .loop,
      .loop, .loop, .loop, .loop, .loop]

theorem reaches_shutDown : Reaches (ChangesInside .default [.default])
    (stacked .default [.default] opened (.start .epoch) false usualDelay) shutDown :=
  reaches_run .start _ (by simp)

theorem reaches_drained : Reaches (ChangesInside .default [.default])
    (stacked .default [.default] opened (.start .epoch) false usualDelay) drained := by
  refine reaches_run .start _ fun f hf => ?_
  obtain rfl : f = _ := by simpa [closes] using hf
  exact ⟨Memory.closeInput, rfl⟩

end Tour

/-- A batch whose processing failed before shutdown waits, and one that was processed before the
source ended does not. -/
theorem settles_everything_tour :
    Tour.shutDown.phase = .finished ∧ Tour.shutDown.Settled ∧ Tour.shutDown.waiting = [0] ∧
      Tour.drained.phase = .finished ∧ Tour.drained.ToldClosed ∧ Tour.drained.waiting = [] ∧
        ∀ n < Tour.drained.sourceJournal.issued.length,
          (Tour.drained.sourceJournal.reports.map Prod.fst).count n = 1 := by
  have hshut : Tour.shutDown.phase = .finished := by rfl
  have hdrained : Tour.drained.phase = .finished := by rfl
  have hended : (Watch.journal Tour.drained.session)[8]? = some (.ended 2 (.failed .closed)) := by
    rfl
  have htold : Tour.drained.ToldClosed := ⟨_, List.mem_of_getElem? hended, .ended 2⟩
  have hsettled := settles_everything Tour.steady_reluctant _ _ _ _ Tour.reaches_shutDown hshut
  have hall := (settles_everything Tour.steady_reluctant _ _ _ _ Tour.reaches_drained hdrained).2
  exact ⟨hshut, hsettled.1, by decide +kernel, hdrained, htold, (hall htold).2⟩

end Consumer
end Redelivery
