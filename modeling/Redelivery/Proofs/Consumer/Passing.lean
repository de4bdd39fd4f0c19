import Redelivery.Proofs.Consumer.Flaky
import Redelivery.Proofs.Consumer.Report
import Redelivery.Proofs.Consumer.Settled
import Redelivery.Proofs.Layer.AfterEnd
import Redelivery.Proofs.Layer.Coverage

/-!
# Every part passes once

A consumer of a layer whose processor rejects parts by chance counts those that pass.  What the
processor has done is written down, and tells which parts they are.  Whatever chance decides
and whatever the order in which tasks end, a part that was received has passed once, or is on
its way.

Main definitions:

* `Consumer.Known`: what holds of every consumer of a watched layer.
* `Consumer.passed`: the parts that have passed.
* `Consumer.Weighed`: they are counted, and the others are on their way.

Main results:

* Theorem `Consumer.Reaches.known`: a consumer of a watched layer is known.
* Theorem `Consumer.Reaches.weighed`: whatever happens, every part is in one place.
-/

namespace Redelivery
namespace Consumer

variable {settings : Settings} {P : Port}

/-! ## What is known of a consumer -/

/-- What holds of every consumer of a watched layer, whatever has happened to it. -/
structure Known {W : Processor} (c : Consumer (Layer.watched settings P) W.recorded) : Prop where
  kept : c.Kept
  counted : c.Counted
  concludes : c.Concludes
  fitting : Watch.Fitting c.session
  accounts : (Watch.accounts c.session).Reachable

theorem Reaches.known {W : Processor} (steady : P.Steady) (processes : W.Steady)
    {source : P.State} {a : Ambient} {worker : W.State} {delay : Duration}
    {c : Consumer (Layer.watched settings P) W.recorded}
    (h : Reaches Watch.ChangesSource
      (watching (W := W.recorded) settings source a ⟨[], worker⟩ delay) c) :
    c.Known := by
  have hown : ∀ f, Watch.ChangesSource f → Recorded.Changes f :=
    fun _ => @Watch.ChangesSource.unwritten settings P _
  have hrecording : Reaches Watch.ChangesSource (recording (P := Layer.port settings P.recorded)
      (W := W) (.new ⟨[], source⟩ a.freshScope.1) a.freshScope.2 worker delay) c := h
  have halone := Watch.alone_of_only (h.drives steady processes.recorded).reaches
  exact {
    kept := hrecording.kept processes hown
    counted := hrecording.counted processes hown
    concludes := h.induct (concludes_watching source a _ delay) fun _ _ hc hmove =>
      hmove.concludes processes.recorded (fun _ hf => hf) hc
    fitting := Watch.fitting_of_reaches halone
    accounts := Watch.reachable_accounts (fun _ hf => hf) (Watch.anyone_of_alone halone) }

/-! ## What has passed -/

/-- Whatever the loop or a task does is a step of the accounts of its layer. -/
theorem Deed.accounts_step {W : Processor} (steady : W.Steady)
    {c c' : Consumer (Layer.watched settings P) W} (deed : Deed c c') (agrees : c.Agrees)
    (filed : c.session.Filed) :
    (Watch.accounts c.session).Step (Watch.accounts c'.session) := by
  have hmove : Move (Watch.anyone settings P).changes c c' := .acts deed
  rcases hmove.session steady fun _ _ => trivial with hsame | ⟨a, -, hstep⟩
  · rw [hsame]
    exact .stays
  · have hdistinct : Session.Distinct { c.session with ambient := a } :=
      ⟨agrees.distinct.nodup, agrees.distinct.lt_next⟩
    exact Watch.accounts_step (s := { c.session with ambient := a }) (fun _ hf => hf)
      (hstep.move hdistinct) filed

/-- A turn of the read leaves the processor, and whatever task works did so before. -/
theorem working_afterRead {W : Processor} (c : Consumer P W) (id : Nat)
    (session : Session P) (reply : Option Reply) :
    (c.afterRead id session reply).worker = c.worker ∧ ∀ task job due,
      ⟨task, .working job due⟩ ∈ (c.afterRead id session reply).tasks →
        ⟨task, .working job due⟩ ∈ c.tasks := by
  rcases reply with _ | batch | error | reason
  · exact ⟨rfl, fun _ _ _ hmem => hmem⟩
  · refine ⟨rfl, fun task job due hmem => ?_⟩
    rcases List.mem_append.1 hmem with hold | hnew
    · exact hold
    · cases List.mem_singleton.1 hnew
  · cases error <;> exact ⟨rfl, fun _ _ _ hmem => hmem⟩
  · exact ⟨rfl, fun _ _ _ hmem => absurd hmem List.not_mem_nil⟩

variable {draws : Nat → UInt64} {rate : Binary64} {span : Duration}

/-- The parts that have passed, at a consumer whose processor rejects parts by chance. -/
def passed (c : Consumer P (Flaky.processor draws rate span).recorded) : Batch :=
  c.log.flatMap Flaky.passedParts

/-- Whatever task works does so on its batch.  The parts that have passed are counted, and every
part that was received has passed, once, or is on its way. -/
structure Weighed
    (c : Consumer (Layer.watched settings P) (Flaky.processor draws rate span).recorded) :
    Prop where
  diligent : ∀ id due job, ⟨id, .working job due⟩ ∈ c.tasks → job.2 = job.1
  counted : (c.worker.state : Flaky).passed = c.passed.length
  parts : c.phase ≠ .died → Batch.serials c.passed + (Watch.accounts c.session).parts =
    (Watch.accounts c.session).receivedParts

/-- What is not reported leaves the parts on their way, unless the loop breaks off. -/
theorem Weighed.aside
    {c c' : Consumer (Layer.watched settings P) (Flaky.processor draws rate span).recorded}
    (h : c.Weighed) (deed : Deed c c') (known : c.Known) (known' : c'.Known)
    (worker : c'.worker = c.worker)
    (tasks : ∀ id due job, ⟨id, .working job due⟩ ∈ c'.tasks → job.2 = job.1) : c'.Weighed := by
  have hlog : c'.log = c.log := congrArg Worked.log worker
  have hpassed : c'.passed = c.passed := by rw [passed, passed, hlog]
  refine ⟨tasks, ?_, fun hlives' => ?_⟩
  · rw [worker, hpassed]
    exact h.counted
  · have hlives := known.kept.lives deed
    have hbroken : (Watch.accounts c'.session).broken = (Watch.accounts c.session).broken :=
      (known'.concludes.returned hlives').trans (known.concludes.returned hlives).symm
    have hstep := deed.accounts_step Flaky.steady_processor.recorded known.kept.agrees
      known.kept.filed
    rw [hpassed]
    cases hstep.weighs with
    | aside reported parts =>
        refine add_right_cancel (b := (Watch.accounts c.session).receivedParts) ?_
        rw [add_assoc, parts hbroken, ← add_assoc, h.parts hlives, add_comm]
    | reports handed reported =>
        -- As much is reported as was processed, and that was nothing.
        have hlength := congrArg List.length reported
        have hbefore : (Watch.accounts c.session).reported.length = c.log.length :=
          known.kept.log.length_eq
        have hafter : (Watch.accounts c'.session).reported.length = c'.log.length :=
          known'.kept.log.length_eq
        rw [List.length_append, List.length_singleton, hbefore, hafter, hlog] at hlength
        omega

/-- What is reported has passed, or is on its way again. -/
theorem Weighed.reports
    {c c' : Consumer (Layer.watched settings P) (Flaky.processor draws rate span).recorded}
    (h : c.Weighed) (lives : c.phase ≠ .died) {batch : Batch} {outcome : Outcome}
    (finish : Flaky.finish draws (Flaky.share rate) batch c.worker.state =
      (outcome, c'.worker.state))
    (log : c'.log = c.log ++ [(batch, some outcome)])
    (step : (Watch.accounts c.session).Step (Watch.accounts c'.session)) {number : Nat}
    {held : Held (Numbered P.Receipt)} (delivers : held.Delivers batch)
    (handed : (Watch.accounts c.session).handed[number]? = some (batch, held))
    (reported : (Watch.accounts c'.session).reported =
      (Watch.accounts c.session).reported ++ [(number, outcome)])
    (tasks : ∀ id due job, ⟨id, .working job due⟩ ∈ c'.tasks → job.2 = job.1) : c'.Weighed := by
  have hpassed : c'.passed = c.passed ++ Flaky.passedParts (batch, some outcome) := by
    rw [passed, log, List.flatMap_append, List.flatMap_singleton]
    rfl
  have hcounted := Flaky.passed_finish draws (Flaky.share rate) batch c.worker.state
  have hserials := Flaky.serials_finish draws (Flaky.share rate) batch c.worker.state delivers
  rw [finish] at hcounted hserials
  refine ⟨tasks, ?_, fun _ => ?_⟩
  · rw [hpassed, List.length_append, ← h.counted]
    exact hcounted
  · rw [hpassed, Batch.serials_append]
    cases step.weighs with
    | aside silent => simp [silent] at reported
    | @reports k batch' held' outcome' handed' reported' received parts =>
        rw [reported, List.append_cancel_left_eq] at reported'
        obtain ⟨rfl, rfl⟩ := Prod.mk.inj (List.singleton_inj.1 reported')
        obtain ⟨rfl, rfl⟩ := Prod.mk.inj (Option.some.inj (handed.symm.trans handed'))
        have hreceived : (Watch.accounts c'.session).receivedParts =
            (Watch.accounts c.session).receivedParts := by
          rw [Accounts.receivedParts, received, Accounts.receivedParts]
        -- What the report takes away has passed or is left.
        refine add_right_cancel (b := Batch.serials (held.left outcome)) ?_
        calc
          _ = (Batch.serials (Flaky.passedParts (batch, some outcome)) +
                Batch.serials (held.left outcome)) + Batch.serials c.passed +
              (Watch.accounts c'.session).parts := by ac_rfl
          _ = Batch.serials c.passed + ((Watch.accounts c'.session).parts +
              Batch.serials held.entry.batch) := by rw [hserials]; ac_rfl
          _ = _ := by rw [parts, ← add_assoc, h.parts lives, hreceived]

/-- Whatever the loop or a task does, every part that was received has passed, once, or is on
its way. -/
theorem Deed.weighed
    {c c' : Consumer (Layer.watched settings P) (Flaky.processor draws rate span).recorded}
    (deed : Deed c c') (known : c.Known) (known' : c'.Known) (h : c.Weighed) : c'.Weighed := by
  have haside := h.aside deed known known'
  have hlives := known.kept.lives deed
  have hstep := deed.accounts_step Flaky.steady_processor.recorded known.kept.agrees
    known.kept.filed
  cases deed with
  | stops | resumes | tallies | finishes => exact haside rfl h.diligent
  | @connects result session phase going connects =>
      rcases result with error | ⟨⟩
      · cases error <;> exact haside rfl h.diligent
      · exact haside rfl h.diligent
  | @begins choice reply session | @reads choice id reply session =>
      have hworking := fun id => working_afterRead c id session reply
      exact haside (hworking _).1 fun id due job hmem =>
        h.diligent id due job ((hworking _).2 _ _ _ hmem)
  | @works id batch job after worker task starts =>
      rcases Prod.mk.inj starts with ⟨rfl, hstarts⟩
      rcases Prod.mk.inj hstarts with ⟨-, rfl⟩
      refine haside rfl fun number due job hmem => ?_
      rcases List.mem_map.1 hmem with ⟨other, hother, heq⟩
      split at heq
      · cases heq
        rfl
      · exact h.diligent number due job (heq ▸ hother)
  | @reports id due job settlement session task passed reports =>
      rcases job with ⟨batch, job⟩
      obtain rfl : job = batch := h.diligent id due _ task
      rcases Session.report_eq_some reports with ⟨delivery, hmem, hid, hsettle, -⟩
      have hbatch : delivery.batch = job := known.kept.batch_eq hlives task hmem hid
      have hissued : (Watch.accounts c.session).handed[delivery.receipt.number]? =
          some (job, delivery.receipt.value) := hbatch ▸ known.kept.filed delivery hmem
      have hreported : (Watch.accounts session).reported = (Watch.accounts c.session).reported ++
          [(delivery.receipt.number, c.outcome (job, job))] := by
        have hreports := congrArg Journal.reports (Port.recorded_settle hsettle).2
        rwa [Journal.reports_append] at hreports
      have hdelivers := (known.accounts.covering.filed _ _ _ hissued).1
      exact h.reports hlives rfl rfl hstep hdelivers hissued hreported
        fun number due job hmem => h.diligent number due job (List.mem_filter.1 hmem).1

/-- Whatever happens to a consumer, every part that was received has passed, once, or is on its
way. -/
theorem Reaches.weighed (steady : P.Steady) {source : P.State} {a : Ambient} {delay : Duration}
    {c : Consumer (Layer.watched settings P) (Flaky.processor draws rate span).recorded}
    (h : Reaches Watch.ChangesSource (watching (W := (Flaky.processor draws rate span).recorded)
      settings source a ⟨[], Flaky.new⟩ delay) c) : c.Weighed := by
  induction h with
  | start => exact ⟨fun _ _ _ hmem => absurd hmem List.not_mem_nil, rfl, fun _ => rfl⟩
  | step hreach hstep ih =>
      have hknown := hreach.known steady Flaky.steady_processor
      have hknown' := (hreach.step hstep).known steady Flaky.steady_processor
      cases hstep.move with
      | acts deed => exact deed.weighed hknown hknown' ih
      | changes own =>
          rcases own with ⟨g, rfl⟩
          exact ⟨ih.diligent, ih.counted, ih.parts⟩
      | elapses grows => exact ⟨ih.diligent, ih.counted, ih.parts⟩

end Consumer

end Redelivery
