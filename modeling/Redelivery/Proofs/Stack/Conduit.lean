import Redelivery.Proofs.Layer.Turn
import Redelivery.Proofs.Port.Recorded
import Redelivery.Stack

/-!
# Layers that only hear of success

A layer passes success on and keeps failures to itself.  So the layers inside another one
hear of success only, and never have anything to deliver again: each hands out what the
source inside the stack hands out, at the same moment, passes every report straight on to
it, and counts as pending what the source has not heard of yet.

What is said here of a stack is said of one layer around any port through which a source
can be seen in this way, and then holds of stacks of any height.

Main definitions:

* `Conduit`: a port through which a source can be seen.
* `Conduit.Passes`: what the source has handed out and heard.
* `Conduit.Sound`: as long as success is reported, all goes straight through.
* `Conduit.layer`, `Stack.conduit`: layers as conduits.

Main results:

* Theorem `Conduit.Sound.layer`: a layer around a sound conduit is one.
* Theorem `Stack.sound_conduit`: a stack is a sound conduit.
* Theorem `Stack.stats_of_hollow`: all layers of a hollow stack tell the same.
-/

namespace Redelivery

/-- A port through which a source can be seen that has receipts of type `ρ`. -/
structure Conduit (Q : Port) (ρ : Type) where
  /-- What has passed between the source and those who use it. -/
  journal : Q.State → Journal ρ
  /-- The number under which the source's journal has what was handed out. -/
  number : Q.Receipt → Nat
  /-- Nothing waits to be delivered again. -/
  Hollow : Q.State → Prop
  /-- A read waits for nothing that is to be delivered again. -/
  Quiet : Q.Read → Prop
  /-- A change of the source by itself. -/
  Changes : (Q.State → Q.State) → Prop

/-- What the journal of a source has no report on. -/
def Journal.unsettled {ρ : Type} (journal : Journal ρ) : Int :=
  journal.issued.length - journal.reports.length

namespace Conduit

variable {P Q : Port} {ρ : Type}

/-- The read is yet to begin, or is quiet. -/
def QuietAt (c : Conduit Q ρ) : Q.Point → Prop
  | .outside _ => True
  | .inside read => c.Quiet read

/-- From one state to another the source has handed out what was handed out here, and has
had these reports. -/
structure Passes (c : Conduit Q ρ) (s s' : Q.State) (issued : List (Batch × Q.Receipt))
    (reports : List (Nat × Outcome)) : Prop where
  hollow : c.Hollow s'
  length_eq : (c.journal s').issued.length = (c.journal s).issued.length + issued.length
  number_eq : ∀ x ∈ issued, c.number x.2 = (c.journal s).issued.length
  reports_eq : (c.journal s').reports = (c.journal s).reports ++ reports

theorem Passes.none {c : Conduit Q ρ} {s : Q.State} (h : c.Hollow s) : c.Passes s s [] [] :=
  ⟨h, rfl, nofun, (List.append_nil _).symm⟩

/-- What is unsettled follows what passes. -/
theorem Passes.unsettled_eq {c : Conduit Q ρ} {s s' : Q.State}
    {issued : List (Batch × Q.Receipt)} {reports : List (Nat × Outcome)}
    (h : c.Passes s s' issued reports) :
    (c.journal s').unsettled = (c.journal s).unsettled + issued.length - reports.length := by
  simp only [Journal.unsettled, h.length_eq, h.reports_eq, List.length_append]
  omega

/-- As long as success is reported, what the source hands out and hears goes straight
through. -/
structure Sound (c : Conduit Q ρ) : Prop where
  turn : ∀ {choice point a s progress a' s'}, c.Hollow s → c.QuietAt point →
    Q.turn choice point a s = some (progress, a', s') →
    c.Passes s s' progress.issued [] ∧ ∀ read, progress = .going read → c.Quiet read
  connect : ∀ {caller a s result a' s'}, c.Hollow s →
    Q.connect caller a s = (result, a', s') → c.Passes s s' [] []
  close : ∀ {caller a s result a' s'}, c.Hollow s →
    Q.close caller a s = (result, a', s') → c.Passes s s' [] []
  settle : ∀ {receipt a s settlement a' s'}, c.Hollow s →
    Q.settle receipt .processed a s = (settlement, a', s') →
    c.Passes s s' [] [(c.number receipt, .processed)]
  changes : ∀ {f s}, c.Changes f → c.Hollow s → c.Passes s (f s) [] []

/-! ## A source with a journal -/

/-- A source is seen through nothing but its journal. -/
def recorded (P : Port) : Conduit P.recorded P.Receipt where
  journal s := s.journal
  number receipt := receipt.number
  Hollow _ := True
  Quiet _ := True
  Changes f := ∃ g : P.State → P.State, f = fun s => ⟨s.journal, g s.state⟩

theorem sound_recorded : (recorded P).Sound where
  turn _ _ turn := by
    rcases Port.recorded_turn_issued turn with ⟨hissued, hreports, hnumber⟩
    have hpasses : ∀ {s s' : Recorded P} {issued : List (Batch × Numbered P.Receipt)},
        s'.journal.issued = s.journal.issued ++ issued.map (fun x => (x.1, x.2.value)) →
        s'.journal.reports = s.journal.reports →
        (∀ x ∈ issued, x.2.number = s.journal.issued.length) →
        (recorded P).Passes s s' issued [] := by
      intro s s' issued hissued hreports hnumber
      refine ⟨trivial, ?_, hnumber, hreports.trans (List.append_nil _).symm⟩
      exact (congrArg List.length hissued).trans (by simp [recorded])
    exact ⟨hpasses hissued hreports hnumber, fun _ _ => trivial⟩
  connect _ connects := by
    rcases Port.recorded_connect connects with ⟨-, hjournal⟩
    exact ⟨trivial, by simp [recorded, hjournal, Exchange.issued], nofun,
      by simp [recorded, hjournal, Exchange.reports]⟩
  close _ closes := by
    rcases Port.recorded_close closes with ⟨-, hjournal⟩
    exact ⟨trivial, by simp [recorded, hjournal, Exchange.issued], nofun,
      by simp [recorded, hjournal, Exchange.reports]⟩
  settle _ settles := by
    rcases Port.recorded_settle settles with ⟨-, hjournal⟩
    exact ⟨trivial, by simp [recorded, hjournal, Exchange.issued], nofun,
      by simp [recorded, hjournal, Exchange.reports]⟩
  changes own _ := by
    rcases own with ⟨g, rfl⟩
    exact ⟨trivial, rfl, nofun, (List.append_nil _).symm⟩

/-! ## A layer -/

/-- A layer around a conduit is hollow if its backlog is empty and it counts what the source
has not heard of; its reads are quiet unless they wait for a delay. -/
def layer (c : Conduit Q ρ) (settings : Settings) : Conduit (Layer.port settings Q) ρ where
  journal layer := c.journal layer.inner
  number held := c.number held.entry.receipt
  Hollow layer := layer.backlog.entries = [] ∧
    layer.pending = (c.journal layer.inner).unsettled ∧ c.Hollow layer.inner
  Quiet
    | .armed _ | .draining _ _ => True
    | .asking _ read => c.Quiet read
    | .pacing _ _ _ _ => False
  Changes f := ∃ g, c.Changes g ∧ f = fun layer => { layer with inner := g layer.inner }

variable {c : Conduit Q ρ} {settings : Settings}

/-- A layer that leaves its backlog empty, and counts, passes on what passes inside. -/
theorem Passes.layer {layer layer' : Layer Q} {inner : Q.State}
    {issued : List (Batch × Q.Receipt)} {issued' : List (Batch × Held Q.Receipt)}
    {reports : List (Nat × Outcome)} (h : c.Passes layer.inner inner issued reports)
    (hollow : (c.layer settings).Hollow layer) (inside : layer'.inner = inner)
    (empty : layer'.backlog.entries = [])
    (pending : layer'.pending = layer.pending + issued.length - reports.length)
    (receipts : issued'.map (fun x => x.2.entry.receipt) = issued.map Prod.snd) :
    (c.layer settings).Passes layer layer' issued' reports := by
  subst inside
  have hlength : issued'.length = issued.length := by
    simpa using congrArg List.length receipts
  refine ⟨⟨empty, ?_, h.hollow⟩, ?_, ?_, h.reports_eq⟩
  · rw [pending, hollow.2.1, h.unsettled_eq]
  · exact h.length_eq.trans (congrArg _ hlength.symm)
  · intro x hx
    have hmem : x.2.entry.receipt ∈ issued.map Prod.snd :=
      receipts ▸ List.mem_map_of_mem hx
    rcases List.mem_map.1 hmem with ⟨y, hy, heq⟩
    have hnumber := h.number_eq y hy
    rwa [heq] at hnumber

/-- A read that asks through a layer is as quiet inside. -/
theorem quietAt_of_asks {layer : Layer Q} {point : (Layer.port settings Q).Point} {scope : Scope}
    {inside : Q.Point} (asks : Layer.Asks settings layer point scope inside)
    (h : (c.layer settings).QuietAt point) : c.QuietAt inside := by
  cases asks with
  | begins => exact trivial
  | goesOn => exact h

/-- A turn of a read through a layer around a sound conduit goes straight through. -/
theorem Sound.layer_turn (h : c.Sound) {choice : Choice} {point : (Layer.port settings Q).Point}
    {a a' : Ambient} {layer layer' : Layer Q} {progress : Layer.Going Q}
    (turn : Layer.Turn settings choice a layer point progress a' layer')
    (hollow : (c.layer settings).Hollow layer) (quiet : (c.layer settings).QuietAt point) :
    (c.layer settings).Passes layer layer' progress.issued [] ∧
      ∀ read, progress = .going read → (c.layer settings).Quiet read := by
  have hstays : c.Passes layer.inner layer.inner [] [] := .none hollow.2.2
  have hatEnd : ∀ {scope b inner}, Layer.AtEnd settings choice a layer point scope b inner →
      c.Passes layer.inner inner [] [] := by
    intro scope b inner atEnd
    cases atEnd with
    | flagged | looked => exact hstays
    | answered asks turn => exact (h.turn hollow.2.2 (quietAt_of_asks asks quiet) turn).1
  cases turn with
  | arms empty =>
      refine ⟨hstays.layer hollow rfl rfl (by simp) rfl, ?_⟩
      rintro _ ⟨⟩
      exact trivial
  | redelivers head | breaks head | paces head =>
      rw [hollow.1] at head
      cases head
  | resumes | putsBack => exact quiet.elim
  | asks asks turn =>
      rcases h.turn hollow.2.2 (quietAt_of_asks asks quiet) turn with ⟨hpasses, hread⟩
      refine ⟨hpasses.layer hollow rfl hollow.1 (by simp [Progress.issued]) rfl, ?_⟩
      rintro _ ⟨⟩
      exact hread _ rfl
  | receives asks turn hands =>
      rcases h.turn hollow.2.2 (quietAt_of_asks asks quiet) turn with ⟨hpasses, -⟩
      refine ⟨hpasses.layer hollow rfl hollow.1 (by simp [Progress.issued]) ?_, by rintro _ ⟨⟩⟩
      cases hands with
      | single | several => rfl
  | fails asks turn | dies asks turn =>
      rcases h.turn hollow.2.2 (quietAt_of_asks asks quiet) turn with ⟨hpasses, -⟩
      exact ⟨hpasses.layer hollow rfl hollow.1 (by simp [Progress.issued]) rfl, by rintro _ ⟨⟩⟩
  | ends atEnd => exact ⟨(hatEnd atEnd).layer hollow rfl hollow.1 (by simp) rfl, by rintro _ ⟨⟩⟩
  | holds atEnd =>
      refine ⟨(hatEnd atEnd).layer hollow rfl hollow.1 (by simp) rfl, ?_⟩
      rintro _ ⟨⟩
      exact trivial
  | interrupted => exact ⟨hstays.layer hollow rfl hollow.1 (by simp) rfl, by rintro _ ⟨⟩⟩

/-- A layer around a sound conduit is one. -/
theorem Sound.layer (h : c.Sound) (settings : Settings) : (c.layer settings).Sound where
  turn hollow quiet turn := h.layer_turn (Layer.turn_cases turn) hollow quiet
  connect {caller a layer _ _ _} hollow connects := by
    rcases Layer.connect_cases caller a layer with ⟨found, b, inner, hconnect, hcases⟩
    have hpasses := h.connect hollow.2.2 hconnect
    rcases hcases with ⟨-, -, heq⟩ | ⟨-, heq⟩
    · rcases Prod.mk.inj (heq.symm.trans connects) with ⟨rfl, rfl, rfl⟩
      exact hpasses.layer hollow rfl hollow.1 (by simp) rfl
    · rcases Prod.mk.inj (heq.symm.trans connects) with ⟨rfl, rfl, rfl⟩
      exact hpasses.layer hollow rfl hollow.1 (by simp) rfl
  close hollow closes := by
    rcases closes with ⟨rfl, rfl, rfl⟩
    exact (h.close hollow.2.2 rfl).layer hollow rfl hollow.1 (by simp) rfl
  settle hollow settles := by
    rcases settles with ⟨rfl, rfl, rfl⟩
    exact (h.settle hollow.2.2 rfl).layer hollow rfl hollow.1 (by simp) rfl
  changes own hollow := by
    rcases own with ⟨g, hown, rfl⟩
    exact (h.changes hown hollow.2.2).layer hollow rfl hollow.1 (by simp) rfl

end Conduit

/-! ## Stacks -/

namespace Stack

variable {P : Port}

/-- The source is seen through a stack. -/
def conduit : (layers : List Settings) → Conduit (port P.recorded layers) P.Receipt
  | [] => .recorded P
  | settings :: inner => (conduit inner).layer settings

theorem sound_conduit : (layers : List Settings) → (conduit (P := P) layers).Sound
  | [] => Conduit.sound_recorded
  | settings :: inner => (sound_conduit inner).layer settings

/-- What is seen is the journal of the source. -/
theorem journal_conduit : (layers : List Settings) → (s : (port P.recorded layers).State) →
    (conduit layers).journal s = Recorded.journal (P := P) (base layers s)
  | [], _ => rfl
  | _ :: inner, (layer : Layer (port P.recorded inner)) => journal_conduit inner layer.inner

/-- A change of the source is one through the stack. -/
theorem changes_update (g : P.State → P.State) : (layers : List Settings) →
    (conduit layers).Changes
      (update (P := P.recorded) (fun s => ⟨s.journal, g s.state⟩) layers)
  | [] => ⟨g, rfl⟩
  | _ :: inner => ⟨_, changes_update g inner, rfl⟩

/-- A new stack is hollow, and its source has not been used. -/
theorem hollow_new (s : P.State) : (layers : List Settings) → (a : Ambient) →
    (conduit layers).Hollow (new (P := P.recorded) ⟨[], s⟩ layers a).1 ∧
      (conduit layers).journal (new (P := P.recorded) ⟨[], s⟩ layers a).1 = []
  | [], _ => ⟨trivial, rfl⟩
  | settings :: inner, a => by
      rcases hollow_new s inner a with ⟨hhollow, hjournal⟩
      refine ⟨⟨rfl, ?_, hhollow⟩, hjournal⟩
      exact (congrArg Journal.unsettled hjournal).symm

/-- All layers of a hollow stack tell the same: nothing waits, and so much is pending. -/
theorem stats_of_hollow : (layers : List Settings) → (s : (port P.recorded layers).State) →
    (conduit layers).Hollow s → ∀ look ∈ stats layers s,
      look.queued = 0 ∧ look.inFlight = ((conduit layers).journal s).unsettled
  | [], _, _, _, hlook => absurd hlook List.not_mem_nil
  | _ :: inner, (layer : Layer (port P.recorded inner)), hollow, look, hlook => by
      rcases List.mem_append.1 hlook with hinner | hown
      · exact stats_of_hollow inner layer.inner hollow.2.2 look hinner
      · obtain rfl := List.mem_singleton.1 hown
        exact ⟨congrArg List.length hollow.1, hollow.2.1⟩

end Stack

end Redelivery
