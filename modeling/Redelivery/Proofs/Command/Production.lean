import Redelivery.Proofs.Command.Consumption
import Redelivery.Proofs.Consumer.Hom
import Redelivery.Proofs.Consumer.Passing
import Redelivery.Proofs.Consumer.Run
import Redelivery.Proofs.Layer.Plain

/-!
# The command loses nothing

The consumer of the command is running while batches are pushed, one after the other, and
while the input is closed.  So pushing and closing may come between any two steps of its loop
and its tasks, and time may pass in between.  Whatever the order, and whatever chance decides,
a run that comes to its end has acknowledged every batch and has counted every part once.

What the processor has done is written down, to tell which parts have passed.

Main definitions:

* `Command.Production`, `Command.Production.Step`, `Command.Production.Reached`: a run while
  batches are pushed, and what can happen to it.
* `Command.Summary.Balances`: the summary says that nothing was lost.
* `Command.Production.CountsOnce`: every part that was pushed has passed once.

Main results:

* Theorem `Command.loses_nothing`: every run that comes to its end.
-/

namespace Redelivery
namespace Command

variable {options : Options} {settings : Settings} {draws : Nat → UInt64}

/-! ## Runs -/

/-- What rejects parts by chance. -/
abbrev flaky (options : Options) (draws : Nat → UInt64) : Processor :=
  Flaky.processor draws options.failureRate (.ofMillis options.workMillis)

/-- A run of the command, while batches are pushed. -/
structure Production (options : Options) (settings : Settings) (draws : Nat → UInt64) where
  /-- The consumer, with what its processor has done. -/
  consumer : Consumer (supply settings) (flaky options draws).recorded
  /-- The batches that were pushed. -/
  pushed : List Batch
  closed : Bool

namespace Production

/-- The layer around a source that has nothing. -/
def opening (settings : Settings) : Session (supply settings) :=
  let (interrupt, ambient) := (Ambient.start (.ofSeconds 0)).freshScope
  .new ambient (Layer.new (P := Memory.port) Memory.empty interrupt)

/-- The consumer is about to connect, and nothing was pushed. -/
def start (options : Options) (settings : Settings) (draws : Nat → UInt64) :
    Production options settings draws :=
  ⟨.new (opening settings) ⟨[], .new⟩ Consumer.usualDelay, [], false⟩

/-- The run, without what is written down. -/
def run (p : Production options settings draws) : Run options settings draws :=
  p.consumer.map (.refl _) (Processor.forget _)

/-- The next batch, with the mint after it was made. -/
def next (p : Production options settings draws) : Batch × Mint :=
  p.consumer.session.ambient.mint.batch
    ((texts options p.pushed.length).map fun text => text.toUTF8.toList)

/-- The next batch is pushed. -/
def push (p : Production options settings draws) : Production options settings draws :=
  { p with
    consumer := { p.consumer with
      session := Command.push options p.consumer.session p.pushed.length }
    pushed := p.pushed ++ [p.next.1] }

/-- The input is closed. -/
def close (p : Production options settings draws) : Production options settings draws :=
  { p with
    consumer := { p.consumer with
      session := { p.consumer.session with
        state := { p.consumer.session.state with
          inner := p.consumer.session.state.inner.closeInput } } }
    closed := true }

/-- One thing that happens: the loop or a task takes a step, the next batch is pushed, the input is
closed after the last, or time passes. -/
inductive Step (p : Production options settings draws) : Production options settings draws → Prop
  | loop {choice : Choice} {c : Consumer (supply settings) (flaky options draws).recorded}
      (h : p.consumer.stepMain choice = some c) : Step p { p with consumer := c }
  | task {id : Nat} {c : Consumer (supply settings) (flaky options draws).recorded}
      (h : p.consumer.stepTask id = some c) : Step p { p with consumer := c }
  | pushes (more : p.pushed.length < options.batches.toNat) : Step p p.push
  | closes (all : p.pushed.length = options.batches.toNat) (opened : p.closed = false) :
      Step p p.close
  | passes (ms : Nat) :
      Step p { p with consumer := { p.consumer with session := p.consumer.session.advance ms } }

/-- What can be reached. -/
inductive Reached : Production options settings draws → Prop
  | start : Reached (start options settings draws)
  | step {p p' : Production options settings draws} : Reached p → Step p p' → Reached p'

/-- Every part that was pushed has passed once, among batches as many and as long as was asked
for, and no two parts are copies of one. -/
structure CountsOnce (p : Production options settings draws) : Prop where
  batches : p.pushed.length = options.batches.toNat
  parts : ∀ batch ∈ p.pushed, batch.length = options.parts.toNat
  distinct : p.pushed.flatten.Pairwise fun part other => ¬part.SharesContent other
  once : ∀ part ∈ p.pushed.flatten,
    p.consumer.passed.countP (fun copy => copy.SharesContent part) = 1

end Production

/-- The summary says that every batch was acknowledged, that as many parts have passed as were
asked for, and that nothing is left and nothing went wrong. -/
structure Summary.Balances (summary : Summary) (options : Options) : Prop where
  sourceAcks : summary.sourceAcks = options.batches.toNat
  succeeded : summary.report.succeeded = options.batches.toNat
  partsProcessed : summary.partsProcessed = options.batches.toNat * options.parts.toNat
  queued : summary.stats.queued = 0
  inFlight : summary.stats.inFlight = 0
  maxAttempts : summary.stats.maxAttempts = 0
  ackErrors : summary.report.ackErrors = 0
  connectionErrors : summary.report.connectionErrors = 0
  deliveries : summary.report.deliveries = summary.report.succeeded + summary.report.failed

/-! ## Batches that are made -/

/-- Batches of as many parts as was asked for, of which none shares its content with another or
with what is made later. -/
structure Made (options : Options) (mint : Mint) (pushed : List Batch) : Prop where
  parts : ∀ batch ∈ pushed, batch.length = options.parts.toNat
  nodup : (Batch.serials pushed.flatten).Nodup
  below : ∀ serial ∈ Batch.serials pushed.flatten, serial < mint.contents

theorem made_nil (mint : Mint) : Made options mint [] :=
  ⟨fun _ hmem => absurd hmem List.not_mem_nil, Multiset.nodup_zero,
    fun _ hmem => absurd hmem (Multiset.notMem_zero _)⟩

theorem Made.mono {mint mint' : Mint} {pushed : List Batch} (h : Made options mint pushed)
    (contents_le : mint.contents ≤ mint'.contents) : Made options mint' pushed :=
  ⟨h.parts, h.nodup, fun serial hserial => Nat.lt_of_lt_of_le (h.below serial hserial) contents_le⟩

/-- One more batch is made. -/
theorem Made.push {mint : Mint} {pushed : List Batch} (h : Made options mint pushed)
    {contents : List (List UInt8)} (length : contents.length = options.parts.toNat) :
    Made options (mint.batch contents).2 (pushed ++ [(mint.batch contents).1]) := by
  have hserials := mint.serials_batch contents
  have hall : Batch.serials (pushed ++ [(mint.batch contents).1]).flatten =
      Batch.serials pushed.flatten + (List.range' mint.contents contents.length : List Nat) := by
    rw [List.flatten_append, List.flatten_singleton, Batch.serials_append, ← hserials]
    rfl
  refine ⟨?_, ?_, ?_⟩
  · intro batch hbatch
    rcases List.mem_append.1 hbatch with hold | hnew
    · exact h.parts batch hold
    · obtain rfl := List.mem_singleton.1 hnew
      have hlength := congrArg List.length hserials
      rw [List.length_map, List.length_range'] at hlength
      exact hlength.trans length
  · rw [hall, Multiset.nodup_add]
    refine ⟨h.nodup, Multiset.coe_nodup.2 List.nodup_range', ?_⟩
    rw [Multiset.disjoint_left]
    intro serial hold hnew
    have hlt := h.below serial hold
    have hle := (List.mem_range'_1.1 (Multiset.mem_coe.1 hnew)).1
    omega
  · intro serial hserial
    rw [hall, Multiset.mem_add] at hserial
    rw [mint.snd_batch]
    rcases hserial with hold | hnew
    · exact Nat.lt_of_lt_of_le (h.below serial hold) (Nat.le_add_right ..)
    · exact (List.mem_range'_1.1 (Multiset.mem_coe.1 hnew)).2

/-! ## A watched run -/

/-- A consumer that is watched, around the layer and around its processor. -/
abbrev Watcher (options : Options) (settings : Settings) (draws : Nat → UInt64) :=
  Consumer (Layer.watched settings Memory.port) (flaky options draws).recorded

/-- It is about to connect a layer around a source that has nothing. -/
def watcher (options : Options) (settings : Settings) (draws : Nat → UInt64) :
    Watcher options settings draws :=
  .watching settings Memory.empty (.start (.ofSeconds 0)) ⟨[], .new⟩ Consumer.usualDelay

/-- The watched consumer as it is without the journals around its layer. -/
def Watcher.unwatched (c : Watcher options settings draws) :
    Consumer (supply settings) (flaky options draws).recorded :=
  c.map (Watch.forget settings Memory.port) (.refl _)

namespace Production

/-- What is known of a run whose consumer is watched. -/
structure Seen (p : Production options settings draws) (c : Watcher options settings draws) :
    Prop where
  reaches : Consumer.Reaches Watch.ChangesSource (watcher options settings draws) c
  same : c.unwatched = p.consumer
  undeterred : c.Undeterred
  stocked : c.Stocked p.pushed p.closed
  made : Made options c.session.ambient.mint p.pushed
  all : p.closed = true → p.pushed.length = options.batches.toNat

theorem seen_start : (start options settings draws).Seen (watcher options settings draws) where
  reaches := .start
  same := rfl
  undeterred := Consumer.undeterred_watching _ _ _ _
  stocked := ⟨supplied_empty, fun _ => rfl, nofun, fun _ hmem => absurd hmem List.not_mem_nil⟩
  made := made_nil _
  all := nofun

variable {p p' : Production options settings draws} {c c' : Watcher options settings draws}

theorem Seen.known (h : p.Seen c) : c.Known :=
  h.reaches.known Memory.steady_port Flaky.steady_processor

/-- The loop or a task takes a step. -/
theorem Seen.acts (h : p.Seen c) (step : Consumer.Step Watch.ChangesSource c c')
    (deed : Consumer.Deed c c') : Seen { p with consumer := c'.unwatched } c' := by
  have hagrees := h.known.kept.agrees
  have hgrows := step.move.grows (Layer.steady_port Memory.steady_port.recorded).recorded
    Flaky.steady_processor.recorded hagrees.distinct
  exact {
    reaches := h.reaches.step step
    same := rfl
    undeterred := deed.undeterred Memory.aloof_port hagrees h.undeterred
    stocked := deed.stocked hagrees h.undeterred.going h.known.fitting h.stocked
    made := h.made.mono hgrows.contents_le
    all := h.all }

/-- Whatever happens, the consumer can be watched. -/
theorem Step.seen (h : Step p p') (seen : p.Seen c) : ∃ c', p'.Seen c' := by
  rcases p with ⟨consumer, pushed, closed⟩
  obtain rfl : c.unwatched = consumer := seen.same
  cases h with
  | @loop choice after h =>
      have hmap : c.unwatched.stepMain choice = (c.stepMain choice).map Watcher.unwatched :=
        c.map_stepMain _ _ choice
      rcases Option.map_eq_some_iff.1 (hmap.symm.trans h) with ⟨c', hstep, rfl⟩
      exact ⟨c', seen.acts (.main hstep) (Consumer.deed_stepMain hstep)⟩
  | @task id after h =>
      have hmap : c.unwatched.stepTask id = (c.stepTask id).map Watcher.unwatched :=
        c.map_stepTask _ _ id
      rcases Option.map_eq_some_iff.1 (hmap.symm.trans h) with ⟨c', hstep, rfl⟩
      exact ⟨c', seen.acts (.task hstep) (Consumer.deed_stepTask hstep)⟩
  | pushes more =>
      have hopened : closed = false := by
        cases hclosed : closed with
        | false => rfl
        | true => exact absurd (seen.all hclosed) (Nat.ne_of_lt more)
      let contents := (texts options pushed.length).map fun text => text.toUTF8.toList
      let made := c.session.ambient.mint.batch contents
      have hlength : contents.length = options.parts.toNat := by
        simp [contents, texts]
      exact ⟨c.outside { c.session.ambient with mint := made.2 } (Memory.push · made.1), {
        reaches := seen.reaches.outside (c.session.ambient.grows_batch contents) _
        same := rfl
        undeterred := seen.undeterred.outside { c.session.ambient with mint := made.2 } rfl _
        stocked := seen.stocked.push hopened _ made.1
        made := seen.made.push hlength
        all := fun hclosed => absurd (hopened.symm.trans hclosed) Bool.false_ne_true }⟩
  | closes all opened =>
      exact ⟨c.outside c.session.ambient Memory.closeInput, {
        reaches := seen.reaches.outside (.refl _) _
        same := rfl
        undeterred := seen.undeterred.outside c.session.ambient rfl _
        stocked := seen.stocked.close
        made := seen.made
        all := fun _ => all }⟩
  | passes ms =>
      exact ⟨c.outside (c.session.ambient.advance ms) id, {
        reaches := seen.reaches.outside (c.session.ambient.grows_advance ms) _
        same := rfl
        undeterred := seen.undeterred.outside (c.session.ambient.advance ms) rfl _
        stocked := seen.stocked.elapse _
        made := seen.made
        all := seen.all }⟩

/-- Every run can be watched. -/
theorem Reached.seen (h : p.Reached) : ∃ c, p.Seen c := by
  induction h with
  | start => exact ⟨_, seen_start⟩
  | step _ hstep ih =>
      rcases ih with ⟨c, hseen⟩
      exact hstep.seen hseen

/-! ## The end of a run -/

/-- In the end nothing is on its way, and all batches were handed out and settled. -/
structure Settled (p : Production options settings draws) (c : Watcher options settings draws) :
    Prop where
  pending : (Watch.accounts c.session).pending = 0
  live : (Watch.accounts c.session).live = 0
  received : (Watch.accounts c.session).received.map Prod.fst = p.pushed
  pushed : p.pushed.length = options.batches.toNat
  settled : (Watch.accounts c.session).settled.length = options.batches.toNat

theorem Seen.settled (h : p.Seen c) (finished : c.phase = .finished) : p.Settled c := by
  have hover : c.phase.over := by
    rw [finished]
    trivial
  rcases h.stocked.ended hover with ⟨hnone, hclosed⟩
  have hconserved := h.known.accounts.conserved
  have hpending := (h.known.concludes.told (h.undeterred.told hover)).2
  rcases hconserved.drained hpending with ⟨hzero, hlive, -⟩
  have hreceived : (Watch.accounts c.session).received.map Prod.fst = p.pushed := by
    have hpushed := h.stocked.supplies.pushed
    rwa [hnone, List.map_nil, List.append_nil] at hpushed
  have hlength := h.all hclosed
  have hcount := hconserved.pending_eq
  rw [← hreceived, List.length_map] at hlength
  refine ⟨hzero, hlive, hreceived, h.all hclosed, ?_⟩
  omega

/-- All parts that were pushed have passed, and no others. -/
theorem Settled.serials_passed (h : p.Settled c) (weighed : c.Weighed) (lives : c.phase ≠ .died) :
    Batch.serials c.passed = Batch.serials p.pushed.flatten := by
  have hparts := weighed.parts lives
  rw [Accounts.parts, h.live, Multiset.zero_bind, add_zero] at hparts
  rw [hparts, Accounts.receivedParts, ← h.received, List.flatMap_def]

/-- Every part that was pushed has passed once. -/
theorem Seen.countsOnce (h : p.Seen c) (finished : c.phase = .finished) : p.CountsOnce := by
  have hsettled := h.settled finished
  have hlives : c.phase ≠ .died := by simp [finished]
  have hserials := hsettled.serials_passed (h.reaches.weighed Memory.steady_port) hlives
  have hpassed : p.consumer.passed = c.passed := by
    rw [← h.same]
    rfl
  refine ⟨hsettled.pushed, h.made.parts, ?_, fun part hpart => ?_⟩
  · exact List.pairwise_map.1 (Multiset.coe_nodup.1 h.made.nodup)
  · rw [hpassed, ← Batch.count_serials, hserials]
    exact Multiset.count_eq_one_of_mem h.made.nodup (Batch.serial_mem hpart)

/-- There is a summary at the end only, and it shows what is known of the watched consumer. -/
theorem Seen.summary_eq (h : p.Seen c) {summary : Summary}
    (summed : summary? p.run = some summary) : c.phase = .finished ∧
      summary = ⟨c.report, (Watch.layer c.session).stats, c.memory.acks.length,
        (c.worker.state : Flaky).passed⟩ := by
  have hrun : p.run = c.unwatched.map (.refl _) (Processor.forget _) := by
    rw [h.same]
    rfl
  have hphase : p.run.phase = c.phase := by rw [hrun]; rfl
  rw [hrun] at summed
  unfold summary? at summed
  split at summed
  next hfinished =>
    obtain rfl := Option.some.inj summed
    refine ⟨hfinished, ?_⟩
    rw [← Layer.stats_map Memory.port.forget]
    rfl
  next => cases summed

/-- In the end no entry waits. -/
theorem Settled.entries (h : p.Settled c) : (Watch.layer c.session).backlog.entries = [] := by
  have hnone : (Watch.held c.session + Watch.paced c.session +
      Watch.queued c.session : Multiset (Entry (Numbered Memory.port.Receipt))) = 0 := h.live
  simp only [Multiset.coe_add, Multiset.coe_eq_zero, List.append_eq_nil_iff] at hnone
  exact hnone.2

/-- As many parts have passed as were asked for. -/
theorem Seen.length_passed (h : p.Seen c) (settled : p.Settled c) (lives : c.phase ≠ .died) :
    (c.worker.state : Flaky).passed = options.batches.toNat * options.parts.toNat := by
  have hweighed := h.reaches.weighed Memory.steady_port
  have hlengths : p.pushed.map List.length =
      List.replicate options.batches.toNat options.parts.toNat := by
    rw [← settled.pushed]
    exact List.eq_replicate_iff.2 ⟨List.length_map _, by simpa using h.made.parts⟩
  rw [hweighed.counted, ← Batch.card_serials, settled.serials_passed hweighed lives,
    Batch.card_serials, List.length_flatten, hlengths, List.sum_replicate_nat]

/-- The summary of a run that has come to its end says so. -/
theorem Seen.balances (h : p.Seen c) {summary : Summary}
    (summed : summary? p.run = some summary) : summary.Balances options := by
  rcases h.summary_eq summed with ⟨hfinished, rfl⟩
  have hlives : c.phase ≠ .died := by simp [hfinished]
  have hsettled := h.settled hfinished
  have hknown := h.known
  have hreport := hknown.counted.report_eq hknown.kept.agrees hfinished
  have htasks := (hknown.kept.agrees.finished hfinished).1
  have hreported := (hknown.kept.reported hlives htasks).length_eq
  rw [List.length_map, List.length_range] at hreported
  have hsmooth := h.stocked.smooth
  exact {
    sourceAcks := h.stocked.supplies.acks.trans hsettled.settled
    succeeded := by
      rw [hreport]
      exact (Journal.countP_succeeds hsmooth).trans
        (hknown.accounts.length_settled.symm.trans hsettled.settled)
    partsProcessed := h.length_passed hsettled hlives
    queued := congrArg List.length hsettled.entries
    inFlight := hsettled.pending
    maxAttempts := congrArg (List.foldl _ 0) hsettled.entries
    ackErrors := by
      rw [hreport]
      exact Journal.countP_isRejected hsmooth
    connectionErrors := by
      rw [hreport]
      exact Journal.countP_isUnreachable hsmooth
    deliveries := by
      rw [hreport]
      exact hreported.symm.trans (Journal.countP_succeeds_add_countP_fails c.journal).symm }

/-! ## The run on the clock -/

/-- All batches may be pushed before the consumer begins. -/
theorem reached_pushed (settings : Settings) (draws : Nat → UInt64) {number : Nat}
    (atMost : number ≤ options.batches.toNat) :
    ∃ p : Production options settings draws, p.Reached ∧ p.pushed.length = number ∧
      p.closed = false ∧
      p.run = .new ((List.range number).foldl (Command.push options) (opening settings)) .new
        Consumer.usualDelay := by
  induction number with
  | zero => exact ⟨_, .start, rfl, rfl, rfl⟩
  | succ number ih =>
      rcases ih (Nat.le_of_succ_le atMost) with ⟨p, hreached, rfl, hopened, hrun⟩
      refine ⟨p.push, hreached.step (.pushes atMost), List.length_append, hopened, ?_⟩
      have hpush : p.push.run = { p.run with
          session := Command.push options p.run.session p.pushed.length } := rfl
      rw [hpush, hrun, List.range_succ, List.foldl_append]
      rfl

/-- The run of the command begins after all batches were pushed. -/
theorem reached_start : ∃ p : Production options settings draws,
    p.Reached ∧ p.run = Command.start options settings draws := by
  rcases reached_pushed settings draws (Nat.le_refl options.batches.toNat) with
    ⟨p, hreached, hlength, hopened, hrun⟩
  refine ⟨p.close, hreached.step (.closes hlength hopened), ?_⟩
  have hclose : p.close.run = { p.run with
      session := { p.run.session with
        state := { p.run.session.state with
          inner := p.run.session.state.inner.closeInput } } } := rfl
  rw [hclose, hrun]
  rfl

/-- Whatever the clock does can happen. -/
theorem persists_reached : Consumer.Persists fun run : Run options settings draws =>
    ∃ p : Production options settings draws, p.Reached ∧ p.run = run where
  main := by
    rintro _ c' choice ⟨p, hreached, rfl⟩ hstep
    rw [run, Consumer.map_stepMain] at hstep
    rcases Option.map_eq_some_iff.1 hstep with ⟨c, hc, rfl⟩
    exact ⟨_, hreached.step (.loop hc), rfl⟩
  task := by
    rintro _ c' id ⟨p, hreached, rfl⟩ hstep
    rw [run, Consumer.map_stepTask] at hstep
    rcases Option.map_eq_some_iff.1 hstep with ⟨c, hc, rfl⟩
    exact ⟨_, hreached.step (.task hc), rfl⟩
  passes := by
    rintro _ ms ⟨p, hreached, rfl⟩
    exact ⟨_, hreached.step (.passes ms), rfl⟩

/-- However long the command goes on, its run is one that can be reached. -/
theorem reached_goOn (hours : Nat) : ∃ p : Production options settings draws,
    p.Reached ∧ p.run = goOn^[hours] (Command.start options settings draws) := by
  induction hours with
  | zero => exact reached_start
  | succ hours ih =>
      rw [Function.iterate_succ_apply']
      exact persists_reached.await _ _ _ ih

end Production

/-- The command loses nothing.  Its run on the clock is one of those that can be reached as batches
are pushed; and whenever such a run has a summary, this says that every batch was acknowledged,
and every part has passed once. -/
theorem loses_nothing (options : Options) (settings : Settings) (draws : Nat → UInt64) :
    (∀ hours, ∃ p : Production options settings draws,
      p.Reached ∧ p.run = goOn^[hours] (start options settings draws)) ∧
    ∀ p : Production options settings draws, p.Reached → ∀ summary, summary? p.run = some summary →
      summary.Balances options ∧ p.CountsOnce := by
  refine ⟨Production.reached_goOn, fun p hreached summary hsummary => ?_⟩
  rcases hreached.seen with ⟨c, hseen⟩
  exact ⟨hseen.balances hsummary, hseen.countsOnce (hseen.summary_eq hsummary).1⟩

/-! ## A run -/

namespace Tour

/-- Two batches of two parts, and half of the parts fail. -/
def pairs : Options := ⟨none, 2, 2, .ofRatio false 1 2, 1⟩

/-- Every third draw rejects a part. -/
def everyThird (n : Nat) : UInt64 := if n % 3 = 0 then 0 else 18446744073709551615

end Tour

/-- Each batch is delivered twice, and its parts pass once. -/
theorem loses_nothing_tour :
    ∃ (p : Production Tour.pairs .default Tour.everyThird) (summary : Summary), p.Reached ∧
      summary? p.run = some summary ∧ summary.report = ⟨4, 2, 2, 0, 0, 1⟩ ∧
        summary.Balances Tour.pairs ∧ p.CountsOnce := by
  have hcommand := loses_nothing Tour.pairs .default Tour.everyThird
  have hfinished : (summary? (goOn^[1] (start Tour.pairs .default Tour.everyThird))).map
      Summary.report = some ⟨4, 2, 2, 0, 0, 1⟩ := by decide +kernel
  rcases hcommand.1 1 with ⟨p, hreached, hrun⟩
  rw [← hrun] at hfinished
  rcases Option.map_eq_some_iff.1 hfinished with ⟨summary, hsummary, hreport⟩
  exact ⟨p, summary, hreached, hsummary, hreport, hcommand.2 p hreached summary hsummary⟩

end Command
end Redelivery
