import Redelivery.Command.Run
import Redelivery.Proofs.Layer.AfterEnd
import Redelivery.Proofs.Source.Memory

/-!
# The supply of the command

The source of the command never refuses to connect, hands out whatever is pushed and is told of
every batch that is acknowledged.  It tells of its end only when its input is closed and all
has been read.

Main definitions:

* `Command.Supplied`: what is known of the source, and of the layer's flag that it has ended.

Main results:

* Theorem `Command.Supplied.turn`, `Command.Supplied.connect`, `Command.Supplied.settle`: the
  operations of the layer keep it so.
* Theorem `Command.Supplied.push`, `Command.Supplied.closeInput`: a batch that is pushed is left
  to be handed out, and closing the input takes nothing away.
-/

namespace Redelivery

namespace Command

/-- The source itself. -/
abbrev memory (s : Recorded Memory.port) : Memory := s.state

/-- All that was pushed was handed out, in its order, or is left.  If the source is known to have
ended, nothing is left and the input is closed. -/
structure Supplied (pushed : List Batch) (closed known : Bool) (s : Recorded Memory.port) :
    Prop where
  connects : (memory s).failingConnects = 0
  input : (memory s).inputClosed = closed
  pushed : s.journal.issued.map Prod.fst ++ (memory s).batches.map Prod.snd = pushed
  acks : (memory s).acks.length = s.journal.reports.length
  ended : known = true → (memory s).batches = [] ∧ closed = true

variable {pushed : List Batch} {closed known : Bool} {s s' : Recorded Memory.port}

/-- The layer may come to know of the end when it is there. -/
theorem Supplied.knows (h : Supplied pushed closed known s) {known' : Bool}
    (ended : known' = true → known = true ∨ (memory s).batches = [] ∧ closed = true) :
    Supplied pushed closed known' s where
  connects := h.connects
  input := h.input
  pushed := h.pushed
  acks := h.acks
  ended hknown := by
    rcases ended hknown with hbefore | hended
    · exact h.ended hbefore
    · exact hended

/-- A turn in which nothing is handed out leaves the supply. -/
theorem Supplied.same (h : Supplied pushed closed known s)
    (same : (memory s).Same (memory s')) (batches : (memory s').batches = (memory s).batches)
    (issued : s'.journal.issued = s.journal.issued)
    (reports : s'.journal.reports = s.journal.reports) :
    Supplied pushed closed known s' where
  connects := same.failingConnects.trans h.connects
  input := same.inputClosed.trans h.input
  pushed := by
    rw [issued, batches]
    exact h.pushed
  acks := by
    rw [same.acks, reports]
    exact h.acks
  ended hknown := by
    rw [batches]
    exact h.ended hknown

/-- What a read may tell of the source: the end only when it is there, and never that the
connection is lost. -/
structure Honest {θ ρ : Type} (closed : Bool) (s : Recorded Memory.port)
    (progress : Progress θ ρ) : Prop where
  closes : progress = .ended (.failed .closed) → (memory s).batches = [] ∧ closed = true
  keeps : ∀ reason, progress ≠ .ended (.failed (.connection reason))

/-- A turn of a read of the source leaves the supply, and is honest. -/
theorem Supplied.turn (h : Supplied pushed closed known s)
    (opened : (memory s).shutDown = false) {choice : Choice} {point : Memory.port.recorded.Point}
    {a a' : Ambient} {progress : Progress Memory.port.recorded.Read Memory.port.recorded.Receipt}
    (turn : Memory.port.recorded.turn choice point a s = some (progress, a', s')) :
    Supplied pushed closed known s' ∧ (memory s').shutDown = false ∧
      Honest closed s' progress := by
  rcases Port.recorded_turn turn with ⟨plain, hplain, rfl, -⟩
  rcases Port.recorded_turn_issued turn with ⟨hissued, hreports, -⟩
  have hturns : (memory s).Turns plain (memory s') := Memory.turns_of_turn hplain
  have hsilent : plain.issued = [] → s'.journal.issued = s.journal.issued := by
    intro hnone
    rw [hissued, Progress.issued_numbered, hnone, List.map_nil, List.map_nil, List.append_nil]
  generalize hm' : memory s' = m' at hturns
  cases hturns with
  | goesOn same batches =>
      subst hm'
      exact ⟨h.same same batches (hsilent rfl) hreports, same.shutDown.trans opened, nofun, nofun⟩
  | givesUp same batches =>
      subst hm'
      exact ⟨h.same same batches (hsilent rfl) hreports, same.shutDown.trans opened, nofun, nofun⟩
  | closes ended =>
      have hended : (memory s).batches = [] ∧ closed = true := by
        rcases ended with hshut | ⟨hnone, hclosed⟩
        · simp [opened] at hshut
        · exact ⟨hnone, h.input.symm.trans hclosed⟩
      have hsame : (memory s).Same (memory s') := hm' ▸ .refl _
      refine ⟨h.same hsame (congrArg Memory.batches hm') (hsilent rfl) hreports,
        hm' ▸ opened, fun _ => ?_, nofun⟩
      rw [hm']
      exact hended
  | @delivers id batch receipt _ same batches =>
      subst hm'
      have hmore : s'.journal.issued =
          s.journal.issued ++ ([(batch, receipt)] : List (Batch × Memory.port.Receipt)) := hissued
      refine ⟨⟨same.failingConnects.trans h.connects, same.inputClosed.trans h.input, ?_, ?_, ?_⟩,
        same.shutDown.trans opened, nofun, nofun⟩
      · have hpushed := h.pushed
        rw [batches] at hpushed
        rw [hmore, List.map_append, List.append_assoc]
        exact hpushed
      · rw [same.acks, hreports]
        exact h.acks
      · intro hknown
        have hnone := (h.ended hknown).1
        rw [batches] at hnone
        cases hnone

/-- The source connects, or tells of its end when it is there. -/
theorem Supplied.connect (h : Supplied pushed closed known s)
    (opened : (memory s).shutDown = false) {caller : Scope} {a a' : Ambient}
    {result : Except ReadError Unit}
    (connects : Memory.port.recorded.connect caller a s = (result, a', s')) :
    Supplied pushed closed known s' ∧ (memory s').shutDown = false ∧
      (result = .ok () ∨
        result = .error .closed ∧ (memory s').batches = [] ∧ closed = true) := by
  rcases Port.recorded_connect connects with ⟨hconnects, hjournal⟩
  have hmemory : Memory.connect caller a (memory s) = (result, a', memory s') := hconnects
  rcases Memory.connect_cases h.connects opened hmemory with ⟨hsame, hbatches, hresult⟩
  have hissued : s'.journal.issued = s.journal.issued := by simp [hjournal, Exchange.issued]
  have hreports : s'.journal.reports = s.journal.reports := by simp [hjournal, Exchange.reports]
  refine ⟨h.same hsame hbatches hissued hreports, hsame.shutDown.trans opened, ?_⟩
  rcases hresult with hok | ⟨hclosed, hnone, hinput⟩
  · exact .inl hok
  · exact .inr ⟨hclosed, hbatches.trans hnone, h.input.symm.trans hinput⟩

/-- Closing the source leaves the supply. -/
theorem Supplied.close (h : Supplied pushed closed known s) {caller : Scope} {a a' : Ambient}
    {result : Except ReadError Unit}
    (closes : Memory.port.recorded.close caller a s = (result, a', s')) :
    Supplied pushed closed known s' ∧ (memory s').batches = (memory s).batches := by
  rcases Port.recorded_close closes with ⟨hcloses, hjournal⟩
  have hissued : s'.journal.issued = s.journal.issued := by simp [hjournal, Exchange.issued]
  have hreports : s'.journal.reports = s.journal.reports := by simp [hjournal, Exchange.reports]
  have hmemory : Memory.notify { memory s with shutDown := true } = memory s' :=
    congrArg (fun x => x.2.2) hcloses
  have hshut : Supplied pushed closed known ⟨s.journal, { memory s with shutDown := true }⟩ :=
    ⟨h.connects, h.input, h.pushed, h.acks, h.ended⟩
  rcases Memory.same_notify { memory s with shutDown := true } with ⟨hsame, hbatches⟩
  rw [hmemory] at hsame hbatches
  exact ⟨hshut.same hsame hbatches hissued hreports, hbatches⟩

/-- A report is accepted, and written down on both sides. -/
theorem Supplied.settle (h : Supplied pushed closed known s)
    {receipt : Memory.port.recorded.Receipt} {outcome : Outcome} {a a' : Ambient}
    {settlement : Settlement}
    (settles : Memory.port.recorded.settle receipt outcome a s = (settlement, a', s')) :
    Supplied pushed closed known s' ∧ (memory s').shutDown = (memory s).shutDown ∧
      (memory s').batches = (memory s).batches ∧ settlement = .accepted := by
  rcases Port.recorded_settle settles with ⟨hsettles, hjournal⟩
  have hissued : s'.journal.issued = s.journal.issued := by simp [hjournal, Exchange.issued]
  have hreports : s'.journal.reports = s.journal.reports ++ [(receipt.number, outcome)] := by
    simp [hjournal, Exchange.reports]
  obtain ⟨ack, hmemory⟩ : ∃ ack, memory s' = { memory s with acks := (memory s).acks ++ [ack] } :=
    ⟨_, (congrArg (fun x => x.2.2) hsettles).symm⟩
  rw [hmemory]
  refine ⟨⟨?_, ?_, ?_, ?_, ?_⟩, rfl, rfl, (congrArg Prod.fst hsettles).symm⟩
  · rw [hmemory]
    exact h.connects
  · rw [hmemory]
    exact h.input
  · rw [hmemory, hissued]
    exact h.pushed
  · rw [hmemory, hreports, List.length_append, List.length_append, h.acks]
    rfl
  · rw [hmemory]
    exact h.ended

/-! ## The source changes -/

theorem supplied_empty : Supplied [] false false ⟨[], Memory.empty⟩ :=
  ⟨rfl, rfl, rfl, rfl, nofun⟩

/-- A batch that is pushed is left to be handed out. -/
theorem Supplied.push (h : Supplied pushed closed known s) (opened : closed = false)
    (batch : Batch) :
    Supplied (pushed ++ [batch]) closed known ⟨s.journal, (memory s).push batch⟩ := by
  rcases (memory s).batches_push batch with ⟨hsame, hbatches⟩
  have hpushed : s.journal.issued.map Prod.fst ++ ((memory s).push batch).batches.map Prod.snd =
      pushed ++ [batch] := by
    rw [hbatches, List.map_append, ← List.append_assoc, h.pushed]
    rfl
  refine ⟨hsame.failingConnects.trans h.connects, hsame.inputClosed.trans h.input, hpushed,
    (congrArg List.length hsame.acks).trans h.acks, fun hknown => ?_⟩
  exact absurd (opened.symm.trans (h.ended hknown).2) Bool.false_ne_true

/-- Closing the input leaves what was pushed. -/
theorem Supplied.closeInput (h : Supplied pushed closed known s) :
    Supplied pushed true known ⟨s.journal, (memory s).closeInput⟩ := by
  rcases (memory s).same_closeInput with ⟨hsame, hbatches⟩
  have hpushed : s.journal.issued.map Prod.fst ++ (memory s).closeInput.batches.map Prod.snd =
      pushed := by
    rw [hbatches]
    exact h.pushed
  exact ⟨hsame.failingConnects.trans h.connects, hsame.inputClosed, hpushed,
    (congrArg List.length hsame.acks).trans h.acks,
    fun hknown => ⟨hbatches.trans (h.ended hknown).1, rfl⟩⟩

/-! ## The layer around the source -/

/-- The supply, as the layer around the source knows it. -/
def Supplies (pushed : List Batch) (closed : Bool) (layer : Layer Memory.port.recorded) : Prop :=
  Supplied pushed closed layer.inputClosed layer.inner

variable {settings : Settings} {layer layer' : Layer Memory.port.recorded}

/-- A read that finds the end finds that it is there. -/
theorem Supplies.atEnd (h : Supplies pushed closed layer)
    (opened : (memory layer.inner).shutDown = false) {choice : Choice} {a a' : Ambient}
    {point : (Layer.port settings Memory.port.recorded).Point} {scope : Scope}
    {inner : Recorded Memory.port}
    (atEnd : Layer.AtEnd settings choice a layer point scope a' inner) (fits : layer.Fits point) :
    Supplied pushed closed layer.inputClosed inner ∧ (memory inner).shutDown = false ∧
      (memory inner).batches = [] ∧ closed = true := by
  cases atEnd with
  | flagged known => exact ⟨h, opened, h.ended known⟩
  | looked passed => exact ⟨h, opened, h.ended fits⟩
  | answered asks turn =>
      rcases Supplied.turn h opened turn with ⟨hsupplied, hopened, honest⟩
      exact ⟨hsupplied, hopened, honest.closes rfl⟩

/-- A turn of a read through the layer leaves the supply, and is honest. -/
theorem Supplies.turn (h : Supplies pushed closed layer)
    (opened : (memory layer.inner).shutDown = false) {choice : Choice} {a a' : Ambient}
    {point : (Layer.port settings Memory.port.recorded).Point}
    {progress : Layer.Going Memory.port.recorded}
    (turn : Layer.Turn settings choice a layer point progress a' layer')
    (fits : layer.Fits point) :
    Supplies pushed closed layer' ∧ (memory layer'.inner).shutDown = false ∧
      Honest closed layer'.inner progress := by
  cases turn with
  | arms | redelivers | breaks | paces | resumes | putsBack | interrupted =>
      exact ⟨h, opened, nofun, nofun⟩
  | asks asks turn | receives asks turn | dies asks turn =>
      rcases Supplied.turn h opened turn with ⟨hsupplied, hopened, -⟩
      exact ⟨hsupplied, hopened, nofun, nofun⟩
  | @fails point scope inside error a' inner asks turn notClosed =>
      rcases Supplied.turn h opened turn with ⟨hsupplied, hopened, honest⟩
      refine ⟨hsupplied, hopened, ?_, ?_⟩
      · rintro ⟨⟩
        exact absurd rfl notClosed
      · rintro reason ⟨⟩
        exact honest.keeps reason rfl
  | ends atEnd drained =>
      rcases h.atEnd opened atEnd fits with ⟨hsupplied, hopened, hended⟩
      exact ⟨hsupplied, hopened, fun _ => hended, nofun⟩
  | holds atEnd pending =>
      rcases h.atEnd opened atEnd fits with ⟨hsupplied, hopened, hended⟩
      exact ⟨hsupplied.knows fun _ => .inr hended, hopened, nofun, nofun⟩

/-- Connecting the layer leaves the supply; it succeeds, or the end is there. -/
theorem Supplies.connect (h : Supplies pushed closed layer)
    (opened : (memory layer.inner).shutDown = false) {caller : Scope} {a a' : Ambient}
    {result : Except ReadError Unit}
    (connects : Layer.connect caller a layer = (result, a', layer')) :
    Supplies pushed closed layer' ∧ (memory layer'.inner).shutDown = false ∧
      (result = .ok () ∨
        result = .error .closed ∧ (memory layer'.inner).batches = [] ∧ closed = true) := by
  rcases Layer.connect_cases caller a layer with ⟨found, b, inner, hinner, hcases⟩
  rcases Supplied.connect h opened hinner with ⟨hsupplied, hopened, hresult⟩
  rcases hcases with ⟨rfl, -, heq⟩ | ⟨-, heq⟩
  · rcases Prod.mk.inj (heq.symm.trans connects) with ⟨rfl, hrest⟩
    obtain ⟨-, rfl⟩ := Prod.mk.inj hrest
    rcases hresult with hok | ⟨-, hended⟩
    · cases hok
    · exact ⟨hsupplied.knows fun _ => .inr hended, hopened, .inl rfl⟩
  · rcases Prod.mk.inj (heq.symm.trans connects) with ⟨rfl, hrest⟩
    obtain ⟨-, rfl⟩ := Prod.mk.inj hrest
    exact ⟨hsupplied, hopened, hresult⟩

/-- Closing the layer leaves the supply. -/
theorem Supplies.close (h : Supplies pushed closed layer) {caller : Scope} {a a' : Ambient}
    {result : Except ReadError Unit} (closes : Layer.close caller a layer = (result, a', layer')) :
    Supplies pushed closed layer' ∧
      (memory layer'.inner).batches = (memory layer.inner).batches := by
  have hinner : Memory.port.recorded.close caller a layer.inner = _ := rfl
  have hclosed := Supplied.close h hinner
  rcases closes with ⟨rfl, rfl, rfl⟩
  exact hclosed

/-- A report to the layer leaves the supply, and is accepted. -/
theorem Supplies.settle (h : Supplies pushed closed layer)
    {held : Held Memory.port.recorded.Receipt} {outcome : Outcome} {settlement : Settlement}
    {a a' : Ambient} (settles : Layer.settle held outcome a layer = (settlement, a', layer')) :
    Supplies pushed closed layer' ∧
      (memory layer'.inner).shutDown = (memory layer.inner).shutDown ∧
        (memory layer'.inner).batches = (memory layer.inner).batches ∧ settlement = .accepted := by
  cases outcome with
  | processed =>
      have hinner : Memory.port.recorded.settle held.entry.receipt .processed a layer.inner = _ :=
        rfl
      have hsettled := Supplied.settle h hinner
      rcases settles with ⟨rfl, rfl, rfl⟩
      exact hsettled
  | failed failure =>
      rcases settles with ⟨rfl, rfl, rfl⟩
      exact ⟨h, rfl, rfl, rfl⟩

end Command

end Redelivery
