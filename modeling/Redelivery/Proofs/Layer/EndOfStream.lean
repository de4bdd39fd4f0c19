import Redelivery.Proofs.Layer.Conservation

/-!
# The end of a stream

When a source ends while batches are pending, the layer holds the end back.  It tells
its users of the end only once every batch that it has ever received is reported as
processed: then nothing is delivered, queued or paced any more, and the layer's own
count of what is pending is zero.

Main definitions:

* `Exchange.SaysClosed`: a user of a port is told that it has ended.
* `Accounts.Acknowledged`: what is settled was reported as processed.
* `Watch.Drained`: nothing is left to do.

Main results:

* Theorem `Layer.Turn.pending_le_zero`, `Layer.connect_pending_le_zero`: the end is told
  with nothing pending.
* Theorem `Accounts.Conserved.drained`: with nothing pending all is settled.
* Theorem `Watch.drained_of_closed`: the end is told with nothing left to do.
-/

namespace Redelivery

/-- Somebody who connects or reads is told that the port has ended. -/
inductive Exchange.SaysClosed {ρ : Type} : Exchange ρ → Prop
  | connected (caller : Scope) : SaysClosed (.connected caller (.error .closed))
  | ended (read : Nat) : SaysClosed (.ended read (.failed .closed))

/-! ## What the accounts tell -/

namespace Accounts

variable {ρ : Type} {x y : Accounts ρ}

/-- Every settled batch was in a delivery that was reported as processed. -/
def Acknowledged (x : Accounts ρ) : Prop :=
  ∀ number ∈ x.settled.map Prod.fst, ∃ (k : Nat) (batch : Batch) (held : Held (Numbered ρ)),
    x.handed[k]? = some (batch, held) ∧ held.entry.number = number ∧ (k, .processed) ∈ x.reported

/-- A step that settles nothing leaves what was acknowledged. -/
theorem Acknowledged.mono (h : x.Acknowledged) (settled : y.settled = x.settled)
    (handed : x.handed <+: y.handed) (reported : x.reported ⊆ y.reported) : y.Acknowledged := by
  intro number hnumber
  rw [settled] at hnumber
  rcases h number hnumber with ⟨k, batch, held, hk, hheld, hreport⟩
  rcases handed with ⟨more, hmore⟩
  refine ⟨k, batch, held, ?_, hheld, reported hreport⟩
  rw [← hmore]
  exact getElem?_append_of_eq_some hk more

/-- Only what is acknowledged is settled. -/
theorem Step.acknowledged (h : Step x y) (hx : x.Acknowledged) : y.Acknowledged := by
  cases h with
  | stays | breaks | loses | paces => exact hx
  | receives fresh delivers =>
      exact hx.mono rfl (List.prefix_append ..) (List.Subset.refl _)
  | redelivers live again delivers =>
      exact hx.mono rfl (List.prefix_append ..) (List.Subset.refl _)
  | fails failure time live handed =>
      exact hx.mono rfl (List.prefix_refl _) (List.subset_append_left ..)
  | @settles batch held rest k live handed =>
      intro number hnumber
      rw [List.map_append, List.mem_append] at hnumber
      rcases hnumber with hold | hnew
      · rcases hx number hold with ⟨j, batch', held', hj, hheld, hreport⟩
        exact ⟨j, batch', held', hj, hheld, List.mem_append_left _ hreport⟩
      · exact ⟨k, batch, held, handed, (List.mem_singleton.1 hnew).symm, by simp⟩

theorem Reachable.acknowledged (h : x.Reachable) : x.Acknowledged := by
  induction h with
  | empty => exact fun number hnumber => absurd hnumber List.not_mem_nil
  | step _ hstep ih => exact hstep.acknowledged ih

/-- If the layer counts nothing as pending, nothing is on its way, and every batch that
was received is settled. -/
theorem Conserved.drained (hx : x.Conserved) (hpending : x.pending ≤ 0) :
    x.pending = 0 ∧ x.live = 0 ∧ ∀ n < x.received.length, n ∈ x.settled.map Prod.fst := by
  have hcard := Multiset.card_le_card hx.numbers_le
  have hcount := hx.pending_eq
  simp only [numbers, Multiset.card_add, Multiset.card_map, Multiset.coe_card, List.length_map,
    Multiset.card_range] at hcard
  -- A count of zero leaves room for the settled batches only, even after a read broke off.
  have hlive : x.live = 0 := Multiset.card_eq_zero.1 (by omega)
  have hall : x.numbers = Multiset.range x.received.length := by
    apply Multiset.eq_of_le_of_card_le hx.numbers_le
    simp only [numbers, Multiset.card_add, Multiset.card_map, Multiset.coe_card, List.length_map,
      Multiset.card_range]
    omega
  refine ⟨by omega, hlive, ?_⟩
  intro n hn
  have hmem := Multiset.mem_range.2 hn
  rw [← hall, numbers, hlive] at hmem
  simpa using hmem

end Accounts

/-! ## When the end is told -/

namespace Layer

variable {settings : Settings} {P : Port}

/-- A read is told of the end with nothing pending. -/
theorem Turn.pending_le_zero {choice : Choice} {a a' : Ambient} {layer layer' : Layer P}
    {point : (port settings P).Point}
    (turn : Turn settings choice a layer point (.ended (.failed .closed)) a' layer') :
    layer'.pending ≤ 0 := by
  cases turn with
  | fails asks turn opened => exact absurd rfl opened
  | ends atEnd drained => exact drained

/-- A read that goes on, and has begun before, changes nothing that is counted. -/
theorem Turn.pending_eq {choice : Choice} {a a' : Ambient} {layer layer' : Layer P}
    {read read' : Reading P}
    (turn : Turn settings choice a layer (.inside read) (.going read') a' layer') :
    layer'.pending = layer.pending := by
  cases turn with
  | asks | holds => rfl

/-- Connecting is answered with the end with nothing pending. -/
theorem connect_pending_le_zero {caller : Scope} {a a' : Ambient} {layer layer' : Layer P}
    (h : connect caller a layer = (.error .closed, a', layer')) : layer'.pending ≤ 0 := by
  rcases connect_cases caller a layer with ⟨result, a'', inner, -, ⟨-, -, heq⟩ | ⟨hpending, heq⟩⟩
  · rw [heq] at h
    cases h
  · rw [heq] at h
    cases h
    exact hpending rfl

end Layer

/-! ## Sessions -/

namespace Watch

variable {settings : Settings} {P : Port}

/-- The last thing that anybody was told is that the layer has ended. -/
def Closed (s : Watch settings P) : Prop :=
  ∃ exchange, s.journal.getLast? = some exchange ∧ exchange.SaysClosed

/-- Nothing is left to do: nothing is pending, queued, paced or delivered, and each batch
that the source has handed out was in a delivery that was reported as processed. -/
structure Drained (s : Watch settings P) : Prop where
  pending_eq : s.layer.pending = 0
  queued_eq : s.queued = []
  paced_eq : s.paced = []
  deliveries_eq : s.deliveries = []
  acknowledged : ∀ n < s.source.issued.length, n ∈ s.source.reports.map Prod.fst ∧
    ∃ (k : Nat) (batch : Batch) (held : Held (Numbered P.Receipt)),
      s.journal.issued[k]? = some (batch, held) ∧ held.entry.number = n ∧
        (k, .processed) ∈ s.journal.reports

/-- What was told last tells the end. -/
theorem Closed.saysClosed {s : Watch settings P} (h : s.Closed)
    {before : Journal (Held (Numbered P.Receipt))} {last : Exchange (Held (Numbered P.Receipt))}
    (hjournal : s.journal = before ++ [last]) : last.SaysClosed := by
  rcases h with ⟨exchange, hlast, hsays⟩
  rw [hjournal, List.getLast?_concat] at hlast
  exact Option.some.inj hlast ▸ hsays

/-- A turn of a read tells the end with nothing pending, or leaves the last thing that
was told, and what is pending. -/
theorem pending_turn {s s' : Watch settings P} (hs : s.Closed → s.layer.pending ≤ 0)
    {choice : Choice} {point : (Layer.watched settings P).Point}
    {progress : Progress (Layer.watched settings P).Read (Layer.watched settings P).Receipt}
    {a : Ambient} (turn : (Layer.watched settings P).turn choice point s.ambient s.state =
      some (progress, a, s'.state)) (closed : s'.Closed) : s'.layer.pending ≤ 0 := by
  rcases Port.recorded_turn turn with ⟨plain, hturn, rfl, hjournal⟩
  have hcases := Layer.turn_cases hturn
  cases plain with
  | ended answer =>
      have hsays := closed.saysClosed (hjournal.trans (List.append_assoc ..).symm)
      cases hsays with
      | ended => exact hcases.pending_le_zero
  | going read =>
      cases point with
      | outside caller =>
          have hsays := closed.saysClosed hjournal
          cases hsays
      | inside read =>
          -- Nothing is written down, so the end was told before this turn.
          rw [hcases.pending_eq]
          apply hs
          simpa [Closed, journal, hjournal, Progress.exchanges, Port.Point.exchanges,
            Port.Point.plain] using closed

/-- Whenever the end was told last, nothing is pending. -/
theorem pending_move {D : Discipline (Layer.watched settings P)}
    (own : ∀ f, D.changes f → ChangesSource f) {s s' : Watch settings P} (move : s.Move D s')
    (hs : s.Closed → s.layer.pending ≤ 0) (closed : s'.Closed) : s'.layer.pending ≤ 0 := by
  cases move with
  | turns enters readers turn => exact pending_turn hs turn closed
  | reports deliveries settles =>
      rcases Port.recorded_settle settles with ⟨-, hjournal⟩
      have hsays := closed.saysClosed hjournal
      cases hsays
  | connects enters connects =>
      rcases Port.recorded_connect connects with ⟨hconnects, hjournal⟩
      have hsays := closed.saysClosed hjournal
      cases hsays with
      | connected => exact Layer.connect_pending_le_zero hconnects
  | closes closes =>
      rcases Port.recorded_close closes with ⟨-, hjournal⟩
      have hsays := closed.saysClosed hjournal
      cases hsays
  | changes hown =>
      rcases own _ hown with ⟨g, rfl⟩
      exact hs closed
  | elapses grows => exact hs closed

/-- In every session, the end is told only with nothing left to do. -/
theorem drained_of_closed {source : P.State} {a : Ambient} {s : Watch settings P}
    (h : Session.Reaches (anyone settings P) (start settings source a) s) (closed : s.Closed) :
    s.Drained := by
  have hpending : s.Closed → s.layer.pending ≤ 0 := by
    refine h.induct (motive := fun s => Closed s → (layer s).pending ≤ 0)
      (Session.distinct_new _ _) (fun _ => Int.le_refl _) ?_
    intro s s' hs hmove
    exact pending_move (fun _ hf => hf) hmove hs
  have hreach := reachable_accounts (fun _ hf => hf) h
  rcases hreach.conserved.drained (hpending closed) with ⟨hzero, hlive, hall⟩
  have hnone : (s.held + s.paced + s.queued : Multiset (Entry (Numbered P.Receipt))) = 0 := hlive
  simp only [Multiset.coe_add, Multiset.coe_eq_zero, List.append_eq_nil_iff] at hnone
  rcases hnone with ⟨⟨hheld, hpaced⟩, hqueued⟩
  refine ⟨hzero, hqueued, hpaced, List.map_eq_nil_iff.1 hheld, ?_⟩
  intro n hn
  exact ⟨hall n hn, hreach.acknowledged n (hall n hn)⟩

/-- After its only batch was processed, the end of a source is told. -/
theorem drained_tour : Tour.ended.Closed ∧ Tour.ended.Drained := by
  have hclosed : Tour.ended.Closed := ⟨_, rfl, .ended 2⟩
  exact ⟨hclosed, drained_of_closed (anyone_of_alone Tour.reached_ended) hclosed⟩

end Watch

end Redelivery
