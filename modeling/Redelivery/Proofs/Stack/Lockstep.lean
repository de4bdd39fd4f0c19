import Redelivery.Proofs.Layer.Conservation
import Redelivery.Proofs.Stack.Conduit

/-!
# In step with the source

A layer around a conduit reports nothing but success inside.  So the journal between the
layer and the conduit and that of the source itself stay in step: what has one number in
one has it in the other, and the reports are the same.  What a layer does with the batches
of a stack it does with those of the source.

Main definitions:

* `Conduit.InStep`: a journal around a conduit is in step with that of the source.
* `Watch.InStep`: so it is inside a watched layer.

Main results:

* Theorem `Watch.inStep_move`: every move stays in step.
* Theorem `Watch.inStep_of_reaches`: everything reached is in step.
-/

namespace Redelivery

variable {Q : Port} {ρ : Type}

namespace Conduit

variable {c : Conduit Q ρ}

/-- The journal around a hollow conduit has the numbers and the reports of the source's own. -/
structure InStep (c : Conduit Q ρ) (s : Recorded Q) : Prop where
  hollow : c.Hollow s.state
  length_eq : s.journal.issued.length = (c.journal s.state).issued.length
  number_eq : ∀ k x, s.journal.issued[k]? = some x → c.number x.2 = k
  reports_eq : s.journal.reports = (c.journal s.state).reports

/-- What passes and is written down stays in step. -/
theorem InStep.passes {s s' : Recorded Q} (h : c.InStep s) {issued : List (Batch × Q.Receipt)}
    {reports : List (Nat × Outcome)} (passes : c.Passes s.state s'.state issued reports)
    (one : issued.length ≤ 1) (hissued : s'.journal.issued = s.journal.issued ++ issued)
    (hreports : s'.journal.reports = s.journal.reports ++ reports) : c.InStep s' := by
  refine ⟨passes.hollow, ?_, ?_, ?_⟩
  · rw [hissued, passes.length_eq, List.length_append, h.length_eq]
  · intro k x hx
    rw [hissued, List.getElem?_append] at hx
    split at hx
    next => exact h.number_eq k x hx
    next hk =>
      rw [passes.number_eq x (List.mem_of_getElem? hx), ← h.length_eq]
      have hlt := (List.getElem?_eq_some_iff.1 hx).1
      omega
  · rw [hreports, passes.reports_eq, h.reports_eq]

theorem length_issued_le (progress : Progress Q.Read Q.Receipt) : progress.issued.length ≤ 1 := by
  unfold Progress.issued
  split <;> simp

/-- A turn of a quiet read stays in step. -/
theorem InStep.turn (sound : c.Sound) {choice : Choice} {point : Q.recorded.Point} {a a' : Ambient}
    {s s' : Recorded Q} {progress : Progress (Numbered Q.Read) (Numbered Q.Receipt)}
    (h : c.InStep s) (quiet : c.QuietAt point.plain)
    (turn : Q.recorded.turn choice point a s = some (progress, a', s')) :
    c.InStep s' ∧ ∀ read, progress = .going read → c.Quiet read.value := by
  rcases Port.recorded_turn turn with ⟨plain, hplain, rfl, hjournal⟩
  rcases sound.turn h.hollow quiet hplain with ⟨hpasses, hread⟩
  refine ⟨h.passes hpasses (length_issued_le plain) ?_ ?_, ?_⟩
  · simp [hjournal]
  · simp [hjournal]
  · intro read hgoing
    cases plain with
    | going found =>
        obtain rfl := Progress.going.inj hgoing
        exact hread _ rfl
    | ended answer => cases answer <;> cases hgoing

/-- Connecting stays in step. -/
theorem InStep.connect (sound : c.Sound) {caller : Scope} {a a' : Ambient} {s s' : Recorded Q}
    {result : Except ReadError Unit} (h : c.InStep s)
    (connects : Q.recorded.connect caller a s = (result, a', s')) : c.InStep s' := by
  rcases Port.recorded_connect connects with ⟨hconnect, hjournal⟩
  exact h.passes (sound.connect h.hollow hconnect) (Nat.zero_le _)
    (by simp [hjournal, Exchange.issued]) (by simp [hjournal, Exchange.reports])

/-- Closing stays in step. -/
theorem InStep.close (sound : c.Sound) {caller : Scope} {a a' : Ambient} {s s' : Recorded Q}
    {result : Except ReadError Unit} (h : c.InStep s)
    (closes : Q.recorded.close caller a s = (result, a', s')) : c.InStep s' := by
  rcases Port.recorded_close closes with ⟨hclose, hjournal⟩
  exact h.passes (sound.close h.hollow hclose) (Nat.zero_le _)
    (by simp [hjournal, Exchange.issued]) (by simp [hjournal, Exchange.reports])

/-- Reporting success on what was handed out stays in step. -/
theorem InStep.settle (sound : c.Sound) {receipt : Numbered Q.Receipt} {batch : Batch}
    {a a' : Ambient} {s s' : Recorded Q} {settlement : Settlement} (h : c.InStep s)
    (genuine : s.journal.issued[receipt.number]? = some (batch, receipt.value))
    (settles : Q.recorded.settle receipt .processed a s = (settlement, a', s')) : c.InStep s' := by
  rcases Port.recorded_settle settles with ⟨hsettle, hjournal⟩
  have hpasses := sound.settle h.hollow hsettle
  rw [h.number_eq _ _ genuine] at hpasses
  exact h.passes hpasses (Nat.zero_le _) (by simp [hjournal, Exchange.issued])
    (by simp [hjournal, Exchange.reports])

end Conduit

/-! ## Inside a layer -/

namespace Layer

variable {settings : Settings} {P : Port}

/-- A turn of a layer's read does nothing inside, or is a turn of the read that it has there. -/
theorem Turn.inside_cases {choice : Choice} {a a' : Ambient} {layer layer' : Layer P}
    {point : (port settings P).Point} {progress : Going P}
    (turn : Turn settings choice a layer point progress a' layer') :
    (layer'.inner = layer.inner ∧ ∀ scope read, progress ≠ .going (.asking scope read)) ∨
      ∃ scope inside found b, Asks settings layer point scope inside ∧
        P.turn choice inside a layer.inner = some (found, b, layer'.inner) ∧
          ∀ scope read, progress = .going (.asking scope read) → found = .going read := by
  have hatEnd : ∀ {scope b inner}, AtEnd settings choice a layer point scope b inner →
      inner = layer.inner ∨ ∃ scope inside found b, Asks settings layer point scope inside ∧
        P.turn choice inside a layer.inner = some (found, b, inner) := by
    intro scope b inner atEnd
    cases atEnd with
    | flagged | looked => exact .inl rfl
    | answered asks turn => exact .inr ⟨_, _, _, _, asks, turn⟩
  cases turn with
  | arms | redelivers | breaks | paces | resumes | putsBack | interrupted =>
      exact .inl ⟨rfl, by rintro _ _ ⟨⟩⟩
  | asks asks turn =>
      refine .inr ⟨_, _, _, _, asks, turn, ?_⟩
      rintro _ _ ⟨⟩
      rfl
  | receives asks turn | fails asks turn | dies asks turn =>
      exact .inr ⟨_, _, _, _, asks, turn, by rintro _ _ ⟨⟩⟩
  | ends atEnd | holds atEnd =>
      rcases hatEnd atEnd with hsame | ⟨_, _, _, _, asks, turn⟩
      · exact .inl ⟨hsame, by rintro _ _ ⟨⟩⟩
      · exact .inr ⟨_, _, _, _, asks, turn, by rintro _ _ ⟨⟩⟩

end Layer

namespace Watch

variable {settings : Settings} {c : Conduit Q ρ}

/-- Inside a layer all is in step with the source, and the reads are quiet. -/
structure InStep (c : Conduit Q ρ) (s : Watch settings Q) : Prop where
  inside : c.InStep s.layer.inner
  quiet : ∀ reader ∈ s.readers, ∀ scope read,
    reader.read.value = .asking scope read → c.Quiet read.value

/-- A turn of a read stays in step. -/
theorem InStep.turn (sound : c.Sound) {s : Watch settings Q} (h : s.InStep c) {choice : Choice}
    {point : (Layer.watched settings Q).Point} {id : Nat}
    {before after : List (Reader (Layer.watched settings Q))}
    {progress : Progress (Layer.watched settings Q).Read (Layer.watched settings Q).Receipt}
    {a : Ambient} {state : (Layer.watched settings Q).State}
    (readers : s.readers = before ++ point.readers id ++ after)
    (turn : (Layer.watched settings Q).turn choice point s.ambient s.state =
      some (progress, a, state)) (deliveries : List (Delivery (Layer.watched settings Q)))
    (next : Nat) :
    InStep c ⟨a, state, before ++ Reader.after id progress ++ after, deliveries, next⟩ := by
  rcases Port.recorded_turn turn with ⟨plain, hturn, rfl, -⟩
  -- The other readers are as quiet as they were.
  have hothers : ∀ reader ∈ before ++ after, ∀ scope read,
      reader.read.value = .asking scope read → c.Quiet read.value := by
    intro reader hreader
    refine h.quiet reader ?_
    rw [readers]
    rcases List.mem_append.1 hreader with hmem | hmem <;> simp [hmem]
  have hquiet : (∀ scope read, plain = .going (.asking scope read) → c.Quiet read.value) →
      ∀ reader ∈ before ++ Reader.after id (plain.numbered (point.number s.state.journal)
        s.state.journal.issued.length) ++ after, ∀ scope read,
          reader.read.value = .asking scope read → c.Quiet read.value := by
    intro hplain reader hreader scope read hasking
    rw [List.append_assoc, List.mem_append, List.mem_append] at hreader
    rcases hreader with hmem | hmem | hmem
    · exact hothers reader (List.mem_append_left _ hmem) scope read hasking
    · cases plain with
      | going found =>
          obtain rfl := List.mem_singleton.1 hmem
          exact hplain scope read (congrArg _ hasking)
      | ended answer => cases answer <;> cases hmem
    · exact hothers reader (List.mem_append_right _ hmem) scope read hasking
  rcases (Layer.turn_cases hturn).inside_cases with
    ⟨hsame, hnone⟩ | ⟨scope, inside, found, b, asks, hinside, hgoing⟩
  · refine ⟨?_, hquiet fun scope read heq => absurd heq (hnone scope read)⟩
    change c.InStep state.state.inner
    rw [hsame]
    exact h.inside
  · have hbefore : c.QuietAt inside.plain := by
      cases point with
      | outside caller => cases asks
      | inside read =>
          have hmem : (⟨id, read⟩ : Reader (Layer.watched settings Q)) ∈ s.readers := by
            simp [readers, Port.Point.readers]
          cases hread : read.value with
          | armed =>
              simp only [Port.Point.plain, hread] at asks
              cases asks
              exact trivial
          | pacing | draining =>
              simp only [Port.Point.plain, hread] at asks
              cases asks
          | asking scope' read' =>
              simp only [Port.Point.plain, hread] at asks
              cases asks
              exact h.quiet _ hmem _ _ hread
    rcases h.inside.turn sound hbefore hinside with ⟨hafter, hread⟩
    exact ⟨hafter, hquiet fun scope read heq => hread read (hgoing scope read heq)⟩

/-- Every move stays in step, as long as every entry that is delivered is genuine. -/
theorem inStep_move (sound : c.Sound) {D : Discipline (Layer.watched settings Q)}
    (own : ∀ f, D.changes f → ∃ g, c.Changes g ∧ f = changeSource g) {s s' : Watch settings Q}
    (genuine : ∀ entry ∈ s.held, ∃ batch,
      s.source.issued[entry.number]? = some (batch, entry.receipt.value))
    (move : s.Move D s') (h : s.InStep c) : s'.InStep c := by
  cases move with
  | turns enters readers turn => exact h.turn sound readers turn _ _
  | @reports delivery outcome settlement before after a state deliveries settles =>
      rcases Port.recorded_settle settles with ⟨hsettles, -⟩
      refine ⟨?_, h.quiet⟩
      change c.InStep state.state.inner
      cases outcome with
      | processed =>
          have hheld : heldBy delivery ∈ s.held :=
            List.mem_map_of_mem (by simp [deliveries])
          rcases genuine _ hheld with ⟨batch, hgenuine⟩
          have hinner := congrArg (fun x => x.2.2.inner) hsettles
          exact hinner ▸ h.inside.settle sound hgenuine rfl
      | failed failure =>
          have hinner := congrArg (fun x => x.2.2.inner) hsettles
          exact hinner ▸ h.inside
  | @connects caller result a state enters connects =>
      rcases Port.recorded_connect connects with ⟨hconnects, -⟩
      refine ⟨?_, h.quiet⟩
      change c.InStep state.state.inner
      rcases Layer.connect_cases caller s.ambient s.layer with ⟨_, _, _, hconnect, hcases⟩
      have hafter := h.inside.connect sound hconnect
      rcases hcases with ⟨-, -, heq⟩ | ⟨-, heq⟩
      · have hinner := congrArg (fun x => x.2.2.inner) (heq.symm.trans hconnects)
        exact hinner ▸ hafter
      · have hinner := congrArg (fun x => x.2.2.inner) (heq.symm.trans hconnects)
        exact hinner ▸ hafter
  | @closes caller result a state closes =>
      rcases Port.recorded_close closes with ⟨hcloses, -⟩
      refine ⟨?_, h.quiet⟩
      have hinner := congrArg (fun x => x.2.2.inner) hcloses
      exact hinner ▸ h.inside.close sound rfl
  | changes hown =>
      rcases own _ hown with ⟨g, hg, rfl⟩
      exact ⟨h.inside.passes (sound.changes hg h.inside.hollow) (Nat.zero_le _)
        (List.append_nil _).symm (List.append_nil _).symm, h.quiet⟩
  | elapses grows => exact ⟨h.inside, h.quiet⟩

/-- At the beginning nothing has been handed out anywhere. -/
theorem inStep_start {source : Q.State} (hollow : c.Hollow source)
    (unused : c.journal source = []) (a : Ambient) : (start settings source a).InStep c where
  inside :=
    { hollow
      length_eq := (congrArg (fun journal => journal.issued.length) unused).symm
      number_eq := fun _ _ h => by cases h
      reports_eq := (congrArg Journal.reports unused).symm }
  quiet _ h := absurd h List.not_mem_nil

/-- Everything that is reached is in step. -/
theorem inStep_of_reaches (sound : c.Sound) {D : Discipline (Layer.watched settings Q)}
    (own : ∀ f, D.changes f → ∃ g, c.Changes g ∧ f = changeSource g) {source : Q.State}
    (hollow : c.Hollow source) (unused : c.journal source = []) {a : Ambient}
    {s : Watch settings Q} (h : Session.Reaches D (start settings source a) s) : s.InStep c := by
  have hchanges : ∀ f, D.changes f → ChangesSource f := fun f hf =>
    let ⟨g, _, hg⟩ := own f hf
    ⟨g, hg⟩
  induction h with
  | start => exact inStep_start hollow unused a
  | step hreach hstep ih =>
      have hmove := hstep.move (hreach.distinct (Session.distinct_new _ _))
      have hgenuine := (reachable_accounts hchanges hreach).conserved.genuine
      refine inStep_move sound own (fun entry hentry => hgenuine entry ?_) hmove ih
      simp [accounts, Layer.accounts, elsewhere, hentry]

end Watch

end Redelivery
