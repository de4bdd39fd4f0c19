import Redelivery.Layer
import Redelivery.Proofs.Consumer.Recorded
import Redelivery.Source.Script

/-!
# An exact report

The report of a consumer says what has happened, neither more nor less, whatever the order in
which tasks end.  Every delivery is reported on once, whether its processing came to an end
or broke off, and it counts as succeeded if it was processed and its acknowledgment did not
break off, and as failed otherwise.  Every read and every connect that gave no batch is
counted once, by what it came to; the end of the port is not counted.

What ended tasks leave behind is counted in two places.  The invariant is therefore about the
report as it will be once all of it is counted.

Main definitions:

* `Journal.report`: the report that a journal tells.
* `Consumer.total`: the report once everything that ended is counted.
* `Consumer.Exact`: the report says what the journal tells.

Main results:

* Theorem `Consumer.Move.counted`: whatever happens, the report and what is still to be
  counted say what the journal tells.
* Theorem `Consumer.exact_report`: the report of a consumer that has come to its end.
-/

namespace Redelivery

/-! ## What a journal tells -/

namespace Exchange

variable {ρ : Type}

/-- A delivery was processed, and the report on it did not break off. -/
def succeeds : Exchange ρ → Bool
  | .reported _ _ .died => false
  | .reported _ outcome _ => outcome.isProcessed
  | _ => false

/-- A delivery was not processed, or the report on it broke off. -/
def fails : Exchange ρ → Bool
  | .reported _ _ .died => true
  | .reported _ outcome _ => !outcome.isProcessed
  | _ => false

/-- The report on a delivery was rejected. -/
def isRejected : Exchange ρ → Bool
  | .reported _ _ (.rejected _) => true
  | _ => false

/-- A connect has failed, though not because the port has ended, or a read has lost the
connection. -/
def isUnreachable : Exchange ρ → Bool
  | .connected _ (.error error) => !error.isClosed
  | .ended _ (.failed (.connection _)) => true
  | _ => false

/-- A read was cancelled or timed out. -/
def comesBack : Exchange ρ → Bool
  | .ended _ (.failed error) => error.isRetryable
  | _ => false

end Exchange

namespace Report

/-- Two reports in one. -/
def add (r s : Report) : Report where
  deliveries := r.deliveries + s.deliveries
  succeeded := r.succeeded + s.succeeded
  failed := r.failed + s.failed
  ackErrors := r.ackErrors + s.ackErrors
  connectionErrors := r.connectionErrors + s.connectionErrors
  reread := r.reread + s.reread

/-- What is counted first does not matter. -/
theorem tally_add (r s : Report) (ending : Ending) :
    (r.add s).tally ending = (r.tally ending).add s := by
  rcases ending with ⟨_ | _, _ | _⟩ | _ <;> simp [tally, add] <;> omega

theorem foldl_tally_add (endings : List Ending) (r s : Report) :
    endings.foldl tally (r.add s) = (endings.foldl tally r).add s := by
  induction endings generalizing r with
  | nil => rfl
  | cons ending endings ih => rw [List.foldl_cons, tally_add, ih, List.foldl_cons]

end Report

namespace Journal

variable {ρ : Type}

/-- The report that a journal tells. -/
def report (journal : Journal ρ) : Report where
  deliveries := journal.issued.length
  succeeded := journal.countP Exchange.succeeds
  failed := journal.countP Exchange.fails
  ackErrors := journal.countP Exchange.isRejected
  connectionErrors := journal.countP Exchange.isUnreachable
  reread := journal.countP Exchange.comesBack

theorem report_append (journal more : Journal ρ) :
    report (journal ++ more) = (report journal).add (report more) := by
  simp [report, Report.add]

/-- A delivery that is reported on has succeeded or failed. -/
theorem countP_succeeds_add_countP_fails (journal : Journal ρ) :
    journal.countP Exchange.succeeds + journal.countP Exchange.fails = journal.reports.length := by
  induction journal with
  | nil => rfl
  | cons exchange journal ih =>
      have hreports : reports (exchange :: journal) = exchange.reports ++ reports journal :=
        List.flatMap_cons
      rw [hreports, List.length_append, ← ih, List.countP_cons, List.countP_cons]
      rcases exchange with _ | _ | _ | _ | ⟨number, _ | failure, _ | error | _⟩ <;>
        simp [Exchange.succeeds, Exchange.fails, Exchange.reports, Outcome.isProcessed] <;> omega

end Journal

namespace Consumer

variable {P : Port} {W : Processor}

/-! ## What is counted -/

/-- The report once everything that ended tasks left behind is counted. -/
def total (c : Consumer P W) : Report := c.endings.foldl Report.tally c.report

/-- What a task leaves behind is counted as its report is in the journal. -/
theorem tally_ending {ρ : Type} (r : Report) (number : Nat) (outcome : Outcome)
    (settlement : Settlement) :
    r.tally (ending outcome settlement) =
      r.add (Journal.report [(.reported number outcome settlement : Exchange ρ)]) := by
  cases outcome <;> cases settlement <;> rfl

/-- Connecting is counted if it failed, and not because the port has ended. -/
theorem total_afterConnect {ρ : Type} (c : Consumer P W) (session : Session P) (caller : Scope)
    (result : Except ReadError Unit) :
    (c.afterConnect session result).total =
      c.total.add (Journal.report [(.connected caller result : Exchange ρ)]) := by
  have hadd := Report.foldl_tally_add c.endings c.report
    (Journal.report [(.connected caller result : Exchange ρ)])
  rw [total, total, ← hadd]
  rcases result with error | ⟨⟩
  · cases error <;> rfl
  · rfl

/-- A turn of the read is counted by what it came to, unless the loop breaks off. -/
theorem total_afterRead (c : Consumer P.recorded W) (id : Nat) (session : Session P.recorded)
    (number delivery : Nat) (plain : Progress P.Read P.Receipt)
    (lives : (c.afterRead id session (plain.numbered number delivery).reply).phase ≠ .died) :
    (c.afterRead id session (plain.numbered number delivery).reply).total =
      c.total.add (Journal.report (plain.exchanges number)) := by
  have hadd := Report.foldl_tally_add c.endings c.report (Journal.report (plain.exchanges number))
  rw [total, total, ← hadd]
  rcases plain with read | ⟨batch, receipt⟩ | error | reason
  · rfl
  · rfl
  · cases error <;> rfl
  · exact absurd rfl lives

/-- The report, and what is still to be counted, say what the journal tells. -/
def Counted (c : Consumer P.recorded W) : Prop := c.phase ≠ .died → c.total = c.journal.report

/-- What is counted is what was written down. -/
theorem Counted.append {c c' : Consumer P.recorded W} (h : c.Counted)
    (lives : c'.phase ≠ .died → c.phase ≠ .died) {more : Journal P.Receipt}
    (journal : c'.journal = c.journal ++ more)
    (total : c'.phase ≠ .died → c'.total = c.total.add more.report) : c'.Counted := by
  intro hlives
  rw [total hlives, h (lives hlives), journal, Journal.report_append]

/-- Whatever is neither written down nor counted leaves the report as it is. -/
theorem Counted.same {c c' : Consumer P.recorded W} (h : c.Counted)
    (lives : c'.phase ≠ .died → c.phase ≠ .died) (journal : c'.journal = c.journal)
    (total : c'.total = c.total) : c'.Counted := by
  intro hlives
  rw [total, h (lives hlives), journal]

/-- A turn of the read is counted as it is written down. -/
theorem Counted.afterRead {c : Consumer P.recorded W} (h : c.Counted) (lives : c.phase ≠ .died)
    {session : Session P.recorded} {choice : Choice} {point : P.recorded.Point} {id : Nat}
    {progress : Progress P.recorded.Read P.recorded.Receipt}
    (turn : P.recorded.turn choice point c.session.ambient c.session.state =
      some (progress, session.ambient, session.state)) :
    (c.afterRead id session progress.reply).Counted := by
  rcases Port.recorded_turn turn with ⟨plain, -, rfl, hjournal⟩
  intro hlives
  have hbegan : (point.plain.exchanges : Journal P.Receipt).report = .empty := by
    cases point <;> rfl
  have hmore : (c.afterRead id session (plain.numbered (point.number c.journal)
      c.journal.issued.length).reply).journal =
      c.journal ++ (point.plain.exchanges ++ plain.exchanges (point.number c.journal)) := by
    rw [journal, session_afterRead]
    exact hjournal
  rw [total_afterRead c id session _ _ plain hlives, h lives, hmore, Journal.report_append,
    Journal.report_append, hbegan]
  simp [Report.add, Report.empty]

/-- Whatever happens, the report and what is still to be counted say what the journal tells. -/
theorem Move.counted {changes : (Recorded P → Recorded P) → Prop}
    (own : ∀ f, changes f → Recorded.Changes f) {c c' : Consumer P.recorded W}
    (move : Move changes c c') (agrees : c.Agrees) (h : c.Counted) : c'.Counted := by
  have hreaders := agrees.readers
  cases move with
  | changes hown =>
      rcases own _ hown with ⟨g, rfl⟩
      exact h
  | elapses grows => exact h
  | acts deed =>
  cases deed with
  | stops between stopping =>
      refine h.same (fun _ hdied => ?_) rfl rfl
      simp [hdied, Phase.between] at between
  | resumes phase => exact h.same (by simp [phase]) rfl rfl
  | tallies | works => exact h.same id rfl rfl
  | @connects result session phase going connects =>
      have hjournal := (Port.recorded_connect (Session.connect_eq connects)).2
      refine h.append (by simp [phase]) ?_ fun _ => total_afterConnect c session c.shutdown result
      rw [journal, session_afterConnect]
      exact hjournal
  | @begins choice reply session phase going reads =>
      rw [phase] at hreaders
      rcases startRead_turn (List.map_eq_nil_iff.1 hreaders) reads with ⟨progress, turn, rfl, -⟩
      exact h.afterRead (by simp [phase]) turn
  | @reads choice id reply session phase reads =>
      rw [phase] at hreaders
      rcases stepRead_turn agrees.distinct hreaders reads with ⟨read, progress, turn, rfl, -⟩
      exact h.afterRead (by simp [phase]) turn
  | @finishes result session phase endings tasks closes =>
      obtain ⟨rfl, rfl⟩ := Prod.mk.inj closes
      exact h.append (by simp [phase]) rfl fun _ => rfl
  | @reports id due job settlement session task passed reports =>
      rcases Session.report_eq_some reports with ⟨delivery, -, -, hsettle, -⟩
      refine h.append (fun hlives => hlives) (Port.recorded_settle hsettle).2 fun _ => ?_
      rw [total, List.foldl_append]
      exact tally_ending _ _ _ _

theorem counted_recording (source : P.State) (a : Ambient) (worker : W.State)
    (delay : Duration) : (recording (W := W) source a worker delay).Counted :=
  fun _ => rfl

/-- Whatever happens to a consumer, the report and what is still to be counted say what the
journal tells. -/
theorem Reaches.counted (steady : W.Steady) {changes : (Recorded P → Recorded P) → Prop}
    (own : ∀ f, changes f → Recorded.Changes f) {source : P.State} {a : Ambient}
    {worker : W.State} {delay : Duration} {c : Consumer P.recorded W.recorded}
    (h : Reaches changes (recording source a worker delay) c) : c.Counted := by
  have hboth : c.Agrees ∧ c.Counted := by
    refine h.induct (motive := fun c => c.Agrees ∧ c.Counted)
      ⟨(kept_recording source a worker delay).agrees, counted_recording source a _ delay⟩ ?_
    rintro c c' ⟨hagrees, hcounted⟩ hmove
    exact ⟨hmove.agrees steady.recorded hagrees, hmove.counted own hagrees hcounted⟩
  exact hboth.2

/-- In the end everything is counted. -/
theorem Counted.report_eq {c : Consumer P.recorded W} (h : c.Counted) (agrees : c.Agrees)
    (finished : c.phase = .finished) : c.report = c.journal.report := by
  have htotal := h (by simp [finished])
  rwa [total, (agrees.finished finished).2] at htotal

/-! ## Rejected reports -/

/-- Around a layer only successes are ever rejected: whatever failed is taken back. -/
def Reclaims (journal : Journal P.Receipt) : Prop :=
  ∀ exchange ∈ journal, exchange.isRejected = true → exchange.succeeds = true

/-- A failure that is reported to a layer is accepted. -/
theorem reclaims_settle {settings : Settings} {Q : Port}
    {receipt : Numbered (Held Q.Receipt)} {outcome : Outcome} {settlement : Settlement}
    {a a' : Ambient} {s s' : Recorded (Layer.port settings Q)}
    (settles : (Layer.port settings Q).recorded.settle receipt outcome a s =
      (settlement, a', s')) :
    Reclaims (P := Layer.port settings Q) [.reported receipt.number outcome settlement] := by
  intro exchange hmem hrejected
  obtain rfl := List.mem_singleton.1 hmem
  cases outcome with
  | processed =>
      cases settlement with
      | accepted | died => cases hrejected
      | rejected error => rfl
  | failed failure =>
      obtain rfl : Settlement.accepted = settlement := congrArg Prod.fst settles
      cases hrejected

/-- Whatever happens to a layer, only successes are rejected. -/
theorem reclaims_move {settings : Settings} {Q : Port}
    {D : Discipline (Layer.port settings Q).recorded}
    (own : ∀ f, D.changes f → Recorded.Changes f) {s s' : Session (Layer.port settings Q).recorded}
    (move : s.Move D s') (h : Reclaims (P := Layer.port settings Q) s.journal) :
    Reclaims (P := Layer.port settings Q) s'.journal := by
  have happend : ∀ {more : Journal (Held Q.Receipt)}, s'.journal = s.journal ++ more →
      Reclaims (P := Layer.port settings Q) more →
        Reclaims (P := Layer.port settings Q) s'.journal := by
    intro more hmore hreclaims exchange hmem
    rw [hmore, List.mem_append] at hmem
    rcases hmem with hold | hnew
    · exact h exchange hold
    · exact hreclaims exchange hnew
  cases move with
  | @turns choice point id before after progress a state enters readers turn =>
      rcases Port.recorded_turn turn with ⟨plain, -, -, hjournal⟩
      refine happend hjournal ?_
      intro exchange hmem hrejected
      rcases List.mem_append.1 hmem with hbegan | hended
      · cases hpoint : point.plain with
        | outside caller =>
            rw [hpoint] at hbegan
            obtain rfl := List.mem_singleton.1 hbegan
            cases hrejected
        | inside read =>
            rw [hpoint] at hbegan
            cases hbegan
      · cases plain with
        | going read => cases hended
        | ended answer =>
            obtain rfl := List.mem_singleton.1 hended
            cases hrejected
  | reports deliveries settles =>
      exact happend (Port.recorded_settle settles).2 (reclaims_settle settles)
  | connects enters connects =>
      refine happend (Port.recorded_connect connects).2 fun exchange hmem hrejected => ?_
      obtain rfl := List.mem_singleton.1 hmem
      cases hrejected
  | closes closes =>
      refine happend (Port.recorded_close closes).2 fun exchange hmem hrejected => ?_
      obtain rfl := List.mem_singleton.1 hmem
      cases hrejected
  | changes hown =>
      rcases own _ hown with ⟨g, rfl⟩
      exact h
  | elapses grows => exact h

/-! ## The end -/

/-- The report of a consumer is exact.

* It counts what the journal tells: deliveries, those that were processed and whose
  acknowledgment did not break off, those that failed, rejected reports, failed connects and
  reads other than by the end, and reads that were cancelled or timed out.
* Every delivery is reported on once, and so succeeded or failed.
* A report says what the processor has done with the batch of its delivery; what broke off has
  failed. -/
structure Exact (c : Consumer P.recorded W.recorded) : Prop where
  counts : c.report = c.journal.report
  once : (c.journal.reports.map Prod.fst).Perm (List.range c.journal.issued.length)
  sum : c.report.succeeded + c.report.failed = c.report.deliveries
  told : List.Forall₂ c.journal.Tells c.journal.reports c.log

/-- The report of a consumer that has come to its end is exact, and around a layer no more
reports are rejected than deliveries have succeeded. -/
theorem exact_report (steady : W.Steady) (source : P.State) (a : Ambient) (worker : W.State)
    (delay : Duration) {c : Consumer P.recorded W.recorded}
    (h : Reaches Recorded.Changes (recording source a worker delay) c)
    (finished : c.phase = .finished) :
    c.Exact ∧ ∀ settings Q, P = Layer.port settings Q →
      c.report.ackErrors ≤ c.report.succeeded := by
  have hown : ∀ f : Recorded P → Recorded P, Recorded.Changes f → Recorded.Changes f :=
    fun _ hf => hf
  have hkept := h.kept steady hown
  have hcounts := (h.counted steady hown).report_eq hkept.agrees finished
  have honce := hkept.reported (by simp [finished]) (hkept.agrees.finished finished).1
  refine ⟨⟨hcounts, honce, ?_, hkept.log⟩, ?_⟩
  · have hlength := honce.length_eq
    rw [List.length_map, List.length_range] at hlength
    rw [hcounts]
    exact (Journal.countP_succeeds_add_countP_fails c.journal).trans hlength
  · rintro settings Q rfl
    have hreach := Reaches.session (P := (Layer.port settings Q).recorded)
      (D := ⟨fun _ _ => True, Recorded.Changes⟩) steady.recorded (fun _ _ => trivial) h
    have hreclaims : Reclaims (P := Layer.port settings Q) c.journal := by
      refine hreach.induct (motive := fun s => Reclaims (P := Layer.port settings Q) s.journal)
        (Session.distinct_new _ _) (fun _ hmem => absurd hmem List.not_mem_nil) ?_
      intro s s' hs hmove
      exact reclaims_move hown hmove hs
    rw [hcounts]
    exact List.countP_mono_left hreclaims

/-! ## A run

A source cannot be reached at first, times out once and loses its connection once.  Of its
three batches it accepts the first, rejects the second, and breaks off at the third; the
first processing that ends breaks off, too, and that is the one of the second batch. -/

namespace Tour

/-- Processing that breaks off the first time. -/
def brittle : Processor where
  State := Bool
  Job := Unit
  start _ _ tried := ((), .zero, tried)
  finish _ mint tried := (if tried then some .processed else none, mint, true)

theorem steady_brittle : brittle.Steady := fun _ _ _ => ⟨Nat.le_refl _, Nat.le_refl _⟩

/-- What the source answers. -/
def fickle : Script := .ofItems [some (.connection "down")] [] #[
  ⟨none, .batch [[97]] .accept⟩, ⟨none, .error .timeout⟩, ⟨none, .batch [[98]] (.reject "late")⟩,
  ⟨none, .error (.connection "lost")⟩, ⟨none, .batch [[99]] .die⟩, ⟨none, .error .closed⟩]

/-- A layer around the source. -/
abbrev layered : Port := Layer.port .default Script.port

/-- Nobody has used the layer. -/
def unused : Layer Script.port := .new fickle (Ambient.start .epoch).freshScope.1

/-- A consumer of the layer. -/
def fresh : Consumer layered.recorded brittle.recorded :=
  recording (P := layered) unused (Ambient.start .epoch).freshScope.2 false .zero

/-- What happens: the second task ends before the first. -/
def run : List (Option Nat) :=
  .replicate 12 none ++ [some 2, some 2, some 0, some 0] ++ .replicate 9 none ++
    [some 3, some 3, some 5, some 5] ++ .replicate 6 none

/-- The consumer at its end. -/
def reported : Consumer layered.recorded brittle.recorded :=
  run.foldl (act ⟨false, fun low _ => low⟩) fresh

end Tour

/-- Of four deliveries two have succeeded, and the report on one of them was rejected. -/
theorem exact_report_tour : Tour.reported.phase = .finished ∧
    Tour.reported.report = ⟨4, 2, 2, 1, 2, 1⟩ ∧ Tour.reported.Exact ∧
      Tour.reported.report.ackErrors ≤ Tour.reported.report.succeeded := by
  have hreach : Reaches Recorded.Changes
      (recording (P := Tour.layered) Tour.unused (Ambient.start .epoch).freshScope.2 false .zero)
      Tour.reported :=
    Reaches.start.acts _ Tour.run
  have hfinished : Tour.reported.phase = .finished := by rfl
  have hexact := exact_report Tour.steady_brittle Tour.unused (Ambient.start .epoch).freshScope.2
    false .zero hreach hfinished
  exact ⟨hfinished, by decide +kernel, hexact.1, hexact.2 .default Script.port rfl⟩

end Consumer

end Redelivery
