import Redelivery.Proofs.Layer.Order
import Redelivery.Proofs.Source.Script

/-!
# Reports in any order

What a report does to a layer depends on its own delivery alone: success is passed on and
counted, a failure appends to the backlog what it leaves of its own batch.  So when several
deliveries are reported on, one after the other, the order shows in nothing but the order in
which failures were appended and the times at which they were.

Main definitions:

* `Session.reportAll`: reports one after the other.
* `Entry.undated`: an entry without the time of its last failure.
* `Watch.Settled`: what a list of reports does, said of each report by itself.
* `Watch.Agree`: the order of the reports does not show.

Main results:

* Theorem `Watch.settled_reportAll`: a list of reports does just that.
* Theorem `Watch.reports_commute`: the order of the reports does not show.
-/

namespace Redelivery

namespace Session

variable {P : Port}

/-- Reports the outcomes of deliveries, one after the other, with what comes back for each;
`none` if one of them is not outstanding. -/
def reportAll (s : Session P) :
    List (Delivery P × Outcome) → Option (List (Nat × Settlement) × Session P)
  | [] => some ([], s)
  | (delivery, outcome) :: rest => do
      let (settlement, s) ← s.report delivery.id outcome
      let (settlements, s) ← s.reportAll rest
      return ((delivery.id, settlement) :: settlements, s)

/-- The delivery with a number is the one that is found. -/
theorem find_of_mem {s : Session P} (hs : s.Distinct) {delivery : Delivery P}
    (h : delivery ∈ s.deliveries) :
    s.deliveries.find? (·.id = delivery.id) = some delivery :=
  find?_key_eq_some (List.nodup_append.1 hs.nodup).2.1 h

/-- What is outstanding can be reported on. -/
theorem exists_report {s : Session P} (hs : s.Distinct) {delivery : Delivery P}
    (h : delivery ∈ s.deliveries) (outcome : Outcome) :
    ∃ settlement s', s.report delivery.id outcome = some (settlement, s') ∧
      P.settle delivery.receipt outcome s.ambient s.state = (settlement, s'.ambient, s'.state) ∧
      s'.deliveries = s.deliveries.filter (·.id ≠ delivery.id) := by
  rcases hsettle : P.settle delivery.receipt outcome s.ambient s.state with ⟨settlement, a, state⟩
  let s' : Session P :=
    ⟨a, state, s.readers, s.deliveries.filter (·.id ≠ delivery.id), s.next⟩
  refine ⟨settlement, s', ?_, rfl, rfl⟩
  simp [report, find_of_mem hs h, hsettle, s']

end Session

/-- A report of success to a layer is one to the port inside. -/
theorem Layer.settle_inner {P : Port} {layer layer' : Layer P.recorded}
    {held : Held (Numbered P.Receipt)} {settlement : Settlement} {a a' : Ambient}
    (settles : settle held .processed a layer = (settlement, a', layer')) :
    P.settle held.entry.receipt.value .processed a layer.inner.state =
      (settlement, a', layer'.inner.state) := by
  rcases settles with ⟨rfl, rfl, rfl⟩
  rfl

/-- A failure does not reach the port inside. -/
theorem Layer.settle_failed_inner {P : Port} {layer layer' : Layer P.recorded}
    {held : Held (Numbered P.Receipt)} {failure : Failure} {settlement : Settlement}
    {a a' : Ambient} (settles : settle held (.failed failure) a layer = (settlement, a', layer')) :
    settlement = .accepted ∧ layer'.inner = layer.inner := by
  rcases settles with ⟨rfl, rfl, rfl⟩
  exact ⟨rfl, rfl⟩

namespace Entry

variable {ρ : Type}

/-- The entry without the time of its last failure. -/
def undated (entry : Entry ρ) : Entry ρ := { entry with lastFailed := none }

@[simp]
theorem undated_markFailed (entry : Entry ρ) (now : Timestamp) :
    (entry.markFailed now).undated = entry.undated :=
  rfl

end Entry

namespace Watch

variable {settings : Settings} {P : Port}

/-! ## What a report does -/

/-- A report on a delivery. -/
abbrev Telling (settings : Settings) (P : Port) := Delivery (Layer.watched settings P) × Outcome

namespace Telling

/-- What comes back. -/
def settlement (answer : P.Receipt → Settlement) (telling : Telling settings P) : Settlement :=
  match telling.2 with
  | .processed => answer (heldBy telling.1).receipt.value
  | .failed _ => .accepted

/-- What is appended to the backlog. -/
def appended (telling : Telling settings P) : Option (Entry (Numbered P.Receipt)) :=
  match telling.2 with
  | .processed => none
  | .failed failure => some (telling.1.receipt.value.afterFailure failure).undated

/-- What is passed on to the source. -/
def passedOn (answer : P.Receipt → Settlement) (telling : Telling settings P) :
    Option (Exchange P.Receipt) :=
  match telling.2 with
  | .processed => some (.reported (heldBy telling.1).number .processed (telling.settlement answer))
  | .failed _ => none

end Telling

/-- What reports on deliveries have done, each by itself. -/
structure Settled (answer : P.Receipt → Settlement) (s : Watch settings P)
    (tellings : List (Telling settings P)) (results : List (Nat × Settlement))
    (s' : Watch settings P) : Prop where
  results : results = tellings.map fun telling => (telling.1.id, telling.settlement answer)
  deliveries : s'.deliveries =
    s.deliveries.filter fun delivery => delivery.id ∉ tellings.map (·.1.id)
  pending : s'.layer.pending + tellings.countP (·.2.isProcessed) = s.layer.pending
  closed : s'.layer.inputClosed = s.layer.inputClosed
  queued : s'.queued.map Entry.undated =
    s.queued.map Entry.undated ++ tellings.filterMap Telling.appended
  source : s'.source = s.source ++ tellings.filterMap (Telling.passedOn answer)

variable {kept : P.State → Prop} {answer : P.Receipt → Settlement}

theorem settled_nil (answer : P.Receipt → Settlement) (s : Watch settings P) :
    s.Settled answer [] [] s := by
  constructor <;> simp

/-- One report, and then the others. -/
theorem Settled.cons {s s' s'' : Watch settings P} {telling : Telling settings P}
    {rest : List (Telling settings P)} {result : Nat × Settlement}
    {results : List (Nat × Settlement)} (h : s.Settled answer [telling] [result] s')
    (hrest : s'.Settled answer rest results s'') :
    s.Settled answer (telling :: rest) (result :: results) s'' where
  results := by
    rw [List.map_cons, ← hrest.results, ← List.singleton_append, h.results]
    rfl
  deliveries := by
    rw [hrest.deliveries, h.deliveries, List.filter_filter]
    refine List.filter_congr fun delivery _ => ?_
    rw [← Bool.decide_and, decide_eq_decide]
    simp only [List.map_cons, List.map_nil, List.mem_cons, List.not_mem_nil, or_false, not_or]
    exact and_comm
  pending := by
    have hone := h.pending
    have hmore := hrest.pending
    rw [List.countP_cons] at hone ⊢
    rw [List.countP_nil] at hone
    omega
  closed := hrest.closed.trans h.closed
  queued := by
    rw [hrest.queued, h.queued, List.append_assoc, ← List.filterMap_append,
      List.singleton_append]
  source := by
    rw [hrest.source, h.source, List.append_assoc, ← List.filterMap_append,
      List.singleton_append]

/-- A report of success is passed on and counted. -/
theorem settled_processed (answers : P.Answers kept answer) {s s' : Watch settings P}
    (hkept : kept s.layer.inner.state) {delivery : Delivery (Layer.watched settings P)}
    {settlement : Settlement}
    (settles : (Layer.watched settings P).settle delivery.receipt .processed s.ambient s.state =
      (settlement, s'.ambient, s'.state))
    (deliveries : s'.deliveries = s.deliveries.filter (·.id ≠ delivery.id)) :
    s.Settled answer [(delivery, .processed)] [(delivery.id, settlement)] s' ∧
      kept s'.layer.inner.state := by
  rcases Port.recorded_settle settles with ⟨hsettles, -⟩
  rcases Layer.settle_processed hsettles with ⟨hbacklog, hpending, hclosed, hsource⟩
  have hinner := Layer.settle_inner hsettles
  have hanswer : settlement = answer (heldBy delivery).receipt.value := by
    rw [← answers.settlement _ s.ambient _ hkept]
    exact (congrArg Prod.fst hinner).symm
  constructor
  · constructor
    · rw [hanswer]
      rfl
    · simpa using deliveries
    · have hless : s'.layer.pending = s.layer.pending - 1 := hpending
      rw [hless]
      exact Int.sub_add_cancel ..
    · exact hclosed
    · have hqueued : s'.queued = s.queued := congrArg Backlog.entries hbacklog
      rw [hqueued]
      exact (List.append_nil _).symm
    · rw [hanswer] at hsource
      exact hsource
  · have hkeeps := answers.keeps (heldBy delivery).receipt.value s.ambient _ hkept
    rwa [show P.settle (heldBy delivery).receipt.value _ _ _ = _ from hinner] at hkeeps

/-- A report of a failure appends what it leaves. -/
theorem settled_failed (answer : P.Receipt → Settlement) {s s' : Watch settings P}
    {delivery : Delivery (Layer.watched settings P)} {failure : Failure} {settlement : Settlement}
    (settles : (Layer.watched settings P).settle delivery.receipt (.failed failure) s.ambient
      s.state = (settlement, s'.ambient, s'.state))
    (deliveries : s'.deliveries = s.deliveries.filter (·.id ≠ delivery.id)) :
    s.Settled answer [(delivery, .failed failure)] [(delivery.id, settlement)] s' ∧
      s'.layer.inner = s.layer.inner := by
  rcases Port.recorded_settle settles with ⟨hsettles, -⟩
  rcases Layer.settle_failed hsettles with ⟨hentries, hpending, hclosed, hsource⟩
  rcases Layer.settle_failed_inner hsettles with ⟨haccepted, hinner⟩
  refine ⟨?_, hinner⟩
  constructor
  · rw [haccepted]
    rfl
  · simpa using deliveries
  · rw [hpending]
    exact Int.add_zero _
  · exact hclosed
  · have hqueued : s'.queued =
        s.queued ++ [(delivery.receipt.value.afterFailure failure).markFailed s.ambient.wall] :=
      hentries
    rw [hqueued, List.map_append]
    rfl
  · exact hsource.trans (List.append_nil _).symm

/-- A report on what is outstanding does what it does by itself. -/
theorem exists_settled (answers : P.Answers kept answer) {s : Watch settings P} (hs : s.Distinct)
    (hkept : kept s.layer.inner.state) {delivery : Delivery (Layer.watched settings P)}
    (hmem : delivery ∈ s.deliveries) (outcome : Outcome) :
    ∃ (settlement : Settlement) (s' : Watch settings P),
      s.report delivery.id outcome = some (settlement, s') ∧ s'.Distinct ∧
      s.Settled answer [(delivery, outcome)] [(delivery.id, settlement)] s' ∧
      kept s'.layer.inner.state := by
  rcases Session.exists_report hs hmem outcome with
    ⟨settlement, s', hreport, hsettles, hdeliveries⟩
  have hstep : Session.Step (anyone settings P) s s' := .report hreport
  refine ⟨settlement, s', hreport, (hstep.move hs).distinct hs, ?_⟩
  cases outcome with
  | processed => exact settled_processed answers hkept hsettles hdeliveries
  | failed failure =>
      rcases settled_failed answer hsettles hdeliveries with ⟨hsettled, hinner⟩
      exact ⟨hsettled, hinner ▸ hkept⟩

/-- Reports on what is outstanding, one after the other, do what each does by itself. -/
theorem settled_reportAll (answers : P.Answers kept answer) {s : Watch settings P}
    (hs : s.Distinct) (hkept : kept s.layer.inner.state) {tellings : List (Telling settings P)}
    (outstanding : ∀ telling ∈ tellings, telling.1 ∈ s.deliveries)
    (distinct : (tellings.map (·.1.id)).Nodup) :
    ∃ results s', s.reportAll tellings = some (results, s') ∧
      s.Settled answer tellings results s' := by
  induction tellings generalizing s with
  | nil => exact ⟨[], s, rfl, settled_nil answer s⟩
  | cons telling rest ih =>
      rcases telling with ⟨delivery, outcome⟩
      rw [List.map_cons, List.nodup_cons] at distinct
      rcases exists_settled answers hs hkept (outstanding _ List.mem_cons_self) outcome with
        ⟨settlement, s', hreport, hs', hsettled, hkept'⟩
      -- The other deliveries are still outstanding.
      have hrest : ∀ telling ∈ rest, telling.1 ∈ s'.deliveries := by
        intro telling htelling
        have hother : telling.1.id ≠ delivery.id := by
          intro heq
          exact distinct.1 (heq ▸ List.mem_map_of_mem (f := (·.1.id)) htelling)
        rw [hsettled.deliveries, List.mem_filter]
        exact ⟨outstanding _ (List.mem_cons_of_mem _ htelling), by simpa using hother⟩
      rcases ih hs' hkept' hrest distinct.2 with ⟨results, s'', hreports, hmore⟩
      refine ⟨(delivery.id, settlement) :: results, s'', ?_, hsettled.cons hmore⟩
      simp [Session.reportAll, hreport, hreports]

/-! ## The order does not show -/

/-- Two outcomes of reports in which nobody sees the order of the reports, but for the order in
which failures were appended and the times at which they were. -/
structure Agree (results : List (Nat × Settlement)) (s : Watch settings P)
    (results' : List (Nat × Settlement)) (s' : Watch settings P) : Prop where
  results : results.Perm results'
  deliveries : s.deliveries = s'.deliveries
  pending : s.layer.pending = s'.layer.pending
  closed : s.layer.inputClosed = s'.layer.inputClosed
  queued : (s.queued.map Entry.undated).Perm (s'.queued.map Entry.undated)
  source : s.source.Perm s'.source

/-- Reports that were made in another order agree. -/
theorem Settled.agree {s s₁ s₂ : Watch settings P} {tellings tellings' : List (Telling settings P)}
    {results results' : List (Nat × Settlement)} (h : s.Settled answer tellings results s₁)
    (h' : s.Settled answer tellings' results' s₂) (reordered : tellings.Perm tellings') :
    Agree results s₁ results' s₂ where
  results := by
    rw [h.results, h'.results]
    exact reordered.map _
  deliveries := by
    rw [h.deliveries, h'.deliveries]
    refine List.filter_congr fun delivery _ => ?_
    rw [decide_eq_decide, (reordered.map (·.1.id)).mem_iff]
  pending := by
    have hcount := reordered.countP_eq (·.2.isProcessed)
    have hbefore := h.pending
    have hbefore' := h'.pending
    omega
  closed := h.closed.trans h'.closed.symm
  queued := by
    rw [h.queued, h'.queued]
    exact (reordered.filterMap _).append_left _
  source := by
    rw [h.source, h'.source]
    exact (reordered.filterMap _).append_left _

/-- What is appended is what the failures leave. -/
theorem filterMap_appended (tellings : List (Telling settings P)) :
    (tellings.filter (!·.2.isProcessed)).filterMap Telling.appended =
      tellings.filterMap Telling.appended := by
  rw [List.filterMap_filter]
  refine List.filterMap_congr fun telling _ => ?_
  rcases telling with ⟨delivery, _ | failure⟩
  · rfl
  · rfl

/-- When deliveries that are outstanding are reported on in two orders, all reports are taken,
and the order does not show.  If the failures are reported in the same order, it does not show
in the backlog at all, but for the times. -/
theorem reports_commute {source : P.State} {a : Ambient} {s : Watch settings P}
    (h : Session.Reaches (anyone settings P) (start settings source a) s)
    (answers : P.Answers kept answer) (hkept : kept s.layer.inner.state)
    {tellings tellings' : List (Telling settings P)}
    (outstanding : ∀ telling ∈ tellings, telling.1 ∈ s.deliveries)
    (distinct : (tellings.map (·.1.id)).Nodup) (reordered : tellings.Perm tellings') :
    ∃ (results results' : List (Nat × Settlement)) (s₁ s₂ : Watch settings P),
      s.reportAll tellings = some (results, s₁) ∧ s.reportAll tellings' = some (results', s₂) ∧
      Agree results s₁ results' s₂ ∧
      (tellings.filter (!·.2.isProcessed) = tellings'.filter (!·.2.isProcessed) →
        s₁.queued.map Entry.undated = s₂.queued.map Entry.undated) := by
  have hs := h.distinct (Session.distinct_new _ _)
  have outstanding' : ∀ telling ∈ tellings', telling.1 ∈ s.deliveries :=
    fun telling htelling => outstanding telling (reordered.mem_iff.2 htelling)
  have distinct' : (tellings'.map (·.1.id)).Nodup := (reordered.map _).nodup_iff.1 distinct
  rcases settled_reportAll answers hs hkept outstanding distinct with ⟨results, s₁, hall, hsettled⟩
  rcases settled_reportAll answers hs hkept outstanding' distinct' with
    ⟨results', s₂, hall', hsettled'⟩
  refine ⟨results, results', s₁, s₂, hall, hall', hsettled.agree hsettled' reordered, ?_⟩
  intro same
  rw [hsettled.queued, hsettled'.queued, ← filterMap_appended tellings,
    ← filterMap_appended tellings', same]

/-! ## Three deliveries

A source has three batches, and rejects a report on the second.  Somebody reads three times;
then the first delivery fails as a whole, the second succeeds, and a part of the third
fails. -/

namespace Burst

def items : Array Script.Item :=
  #[⟨none, .batch [[97], [98]] .accept⟩, ⟨none, .batch [[99]] (.reject "busy")⟩,
    ⟨none, .batch [[100], [101]] .accept⟩]

abbrev Layered := Watch .default Script.port

/-- Nobody has used the layer. -/
def unused : Layered := start .default (Script.ofItems [] [] items) (.start .epoch)

/-- A read that finds a batch at once. -/
def read (s : Layered) : Layered :=
  ((s.startRead Tour.choice Tour.caller).2.goOn Tour.choice s.next).goOn Tour.choice s.next

/-- The batches are delivered. -/
def delivered : Layered :=
  read (read (read (unused.scope false).2))

/-- What is reported on them. -/
def tellings : List (Telling .default Script.port) :=
  delivered.deliveries.zip [.failed (.whole "full"), .processed,
    .failed (.parts ((PartialFailure.ofBatch (Group.tag ⟨1, 2⟩
      (Mint.batch ⟨3, 0⟩ [[100], [101]]).1) "full").failed 1 "too large"))]

abbrev Reached (s : Layered) : Prop :=
  Session.Reaches (anyone .default Script.port) unused s

theorem reached_read {s : Layered} (h : Reached s) : Reached (read s) :=
  ((h.step (.startRead Tour.choice trivial)).goOn Tour.choice s.next).goOn Tour.choice s.next

theorem reached_delivered : Reached delivered :=
  reached_read (reached_read (reached_read (.step .start (.scope _ false))))

end Burst

/-- The three are reported on in their order, and in the order turned round. -/
theorem reports_commute_burst :
    Burst.tellings.length = 3 ∧
      ∃ (results results' : List (Nat × Settlement)) (s₁ s₂ : Burst.Layered),
        Burst.delivered.reportAll Burst.tellings = some (results, s₁) ∧
        Burst.delivered.reportAll Burst.tellings.reverse = some (results', s₂) ∧
        Agree results s₁ results' s₂ ∧
        (Burst.tellings.filter (!·.2.isProcessed) =
            Burst.tellings.reverse.filter (!·.2.isProcessed) →
          s₁.queued.map Entry.undated = s₂.queued.map Entry.undated) := by
  have houtstanding : ∀ telling ∈ Burst.tellings, telling.1 ∈ Burst.delivered.deliveries := by
    intro telling htelling
    exact (List.of_mem_zip htelling).1
  have hreversed : Burst.tellings.Perm Burst.tellings.reverse :=
    (List.reverse_perm Burst.tellings).symm
  constructor
  · decide +kernel
  · exact reports_commute Burst.reached_delivered (Script.answers_port Burst.items) (by rfl)
      houtstanding (by decide +kernel) hreversed

end Watch

end Redelivery
