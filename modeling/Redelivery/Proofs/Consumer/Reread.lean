import Redelivery.Proofs.Consumer.Watched
import Redelivery.Proofs.Layer.Aloof
import Redelivery.Proofs.Layer.Interruption

/-!
# A consumer does not read in vain

A consumer reads again after a read that was cancelled or timed out.  Around a candid source
that leaves the scopes of its reads alone it does so because a batch has failed and waits to
be delivered again, or because shutdown was requested, and then it reads no more.  So it reads
again at most once for every failure, and once more for the shutdown.

Every time, what a read leaves to be served is owed, and the next read serves it: a read
that comes back for nothing never meets another one for the same failure.

A source is given the scope of the read that asks it.  One that cancels that scope, and then
gives the read up because it is cancelled, is candid all the same, and its consumer spins.

Main definitions:

* `Consumer.Undisturbed`: neither the source nor anybody else cancels the scope of a read.
* `Consumer.Frugal`: how often it has read again, against what is owed and what failed.
* `Consumer.officious`: a source that cancels the scopes of its reads.

Main results:

* Theorem `Consumer.Deed.spared`: around a source that cancels no scope, only what happens
  around a consumer can disturb it.
* Theorem `Consumer.Undisturbed.frugal`: a consumer stays frugal.
* Theorem `Consumer.never_spins`: no read comes back for nothing, and no consumer spins.
-/

namespace Redelivery

/-- The ending is that of a delivery that failed, or whose report broke off. -/
def Ending.isFailed : Ending → Bool
  | .reported processed _ => !processed
  | .died => true

namespace Report

@[simp]
theorem reread_tally (report : Report) (ending : Ending) :
    (report.tally ending).reread = report.reread := by
  rcases ending with ⟨_ | _, _ | _⟩ | _ <;> rfl

@[simp]
theorem failed_tally (report : Report) (ending : Ending) :
    (report.tally ending).failed = report.failed + if ending.isFailed then 1 else 0 := by
  rcases ending with ⟨_ | _, _ | _⟩ | _ <;> rfl

theorem reread_foldl_tally (endings : List Ending) (report : Report) :
    (endings.foldl tally report).reread = report.reread := by
  induction endings generalizing report with
  | nil => rfl
  | cons ending endings ih => rw [List.foldl_cons, ih, reread_tally]

theorem failed_foldl_tally (endings : List Ending) (report : Report) :
    (endings.foldl tally report).failed = report.failed + endings.countP Ending.isFailed := by
  induction endings generalizing report with
  | nil => rfl
  | cons ending endings ih =>
      rw [List.foldl_cons, ih, failed_tally, List.countP_cons]
      omega

end Report

namespace Consumer

variable {settings : Settings} {P : Port} {W : Processor}

/-! ## Counts -/

/-- How many deliveries have failed, counted in the report or not. -/
def failed (c : Consumer P W) : Nat := c.report.failed + c.endings.countP Ending.isFailed

@[simp]
theorem reread_tally (c : Consumer P W) : c.tally.report.reread = c.report.reread :=
  Report.reread_foldl_tally c.endings c.report

@[simp]
theorem failed_tally (c : Consumer P W) : c.tally.failed = c.failed :=
  Report.failed_foldl_tally c.endings c.report

/-- A turn of the read leaves the count of failures, unless the loop breaks off. -/
theorem failed_afterRead {c : Consumer P W} {id : Nat} {session : Session P}
    {reply : Option Reply} (hlives : (c.afterRead id session reply).phase ≠ .died) :
    (c.afterRead id session reply).failed = c.failed := by
  rcases reply with _ | batch | error | reason
  · rfl
  · exact failed_tally { c with
      session, report := { c.report with deliveries := c.report.deliveries + 1 }
      tasks := c.tasks ++ [⟨id, .spawned batch⟩], phase := .ready }
  · cases error <;> rfl
  · exact absurd rfl hlives

theorem stopping_afterRead {c : Consumer P W} {id : Nat} {session : Session P}
    {reply : Option Reply} : (c.afterRead id session reply).stopping = true ↔
      session.ambient.scopes.IsCancelled c.shutdown := by
  have hshutdown : (c.afterRead id session reply).shutdown = c.shutdown := by
    cases reply with
    | none => rfl
    | some reply => exact shutdown_take _ _ _
  simp [stopping, hshutdown]

/-- The loop reads again after a read that was cancelled or timed out, and counts it. -/
theorem reread_afterRead (c : Consumer P W) (id : Nat) (session : Session P)
    (progress : Progress P.Read P.Receipt) :
    (c.afterRead id session progress.reply).report.reread = c.report.reread ∨
      ∃ error, progress = .ended (.failed error) ∧ error.isRetryable ∧
        (c.afterRead id session progress.reply).report.reread = c.report.reread + 1 ∧
        (c.afterRead id session progress.reply).phase = .ready := by
  rcases progress with read | ⟨batch, receipt⟩ | error | reason
  · exact .inl rfl
  · exact .inl (reread_tally { c with
      session, report := { c.report with deliveries := c.report.deliveries + 1 }
      tasks := c.tasks ++ [⟨id, .spawned batch⟩], phase := .ready })
  · cases error with
    | closed | connection => exact .inl rfl
    | cancelled | timeout => exact .inr ⟨_, rfl, rfl, rfl, rfl⟩
  · exact .inl rfl

/-- A report of a failure ends in a failure. -/
theorem isFailed_ending (outcome : Outcome) (settlement : Settlement) :
    (if outcome.isProcessed then 0 else 1) ≤
      if (ending outcome settlement).isFailed then 1 else 0 := by
  cases outcome <;> cases settlement <;>
    simp [ending, Ending.isFailed, Outcome.isProcessed]

/-! ## Reads that nobody disturbs -/

/-- A consumer of a layer that nobody else uses, in which neither the source nor anybody else
around the layer cancels a scope in which a read asks or waits. -/
inductive Undisturbed (settings : Settings) (source : P.State) (a : Ambient) (worker : W.State)
    (delay : Duration) : Consumer (Layer.watched settings P) W → Prop
  | begins : Undisturbed settings source a worker delay (watching settings source a worker delay)
  | step {c c' : Consumer (Layer.watched settings P) W} :
      Undisturbed settings source a worker delay c → Step Watch.ChangesSource c c' →
        Watch.Spares c.session c'.session → Undisturbed settings source a worker delay c'

theorem Undisturbed.reaches {source : P.State} {a : Ambient} {worker : W.State} {delay : Duration}
    {c : Consumer (Layer.watched settings P) W}
    (h : Undisturbed settings source a worker delay c) :
    Reaches Watch.ChangesSource (watching settings source a worker delay) c := by
  induction h with
  | begins => exact .start
  | step _ hstep _ ih => exact ih.step hstep

/-- A move that spares the scope of the read is undisturbed for the session, too. -/
theorem Move.undisturbed (processes : W.Steady) {source : P.State} {a : Ambient}
    {c c' : Consumer (Layer.watched settings P) W} (move : Move Watch.ChangesSource c c')
    (hdrives : c.Drives source a) (spares : Watch.Spares c.session c'.session)
    (h : Watch.Undisturbed source a c.session) : Watch.Undisturbed source a c'.session := by
  rcases move.session processes hdrives.enters with hsame | ⟨b, hadds, hstep⟩
  · exact hsame ▸ h
  · have hadded : Watch.Undisturbed source a { c.session with ambient := b } :=
      h.step (.elapse hadds.grows) fun _ => Watch.spared_of_flags hadds.flag
    refine hadded.step (hstep.mono Watch.enters_of_only fun _ hf => hf) ?_
    intro hothers hqueued hids reader hreader scope hscope
    have hspared := spares (hothers.of_adds hadds) hqueued hids reader hreader scope hscope
    exact hspared.trans (hadds.flag _).symm

/-- Around a source that cancels no scope, whatever the loop or a task does spares the scopes of
the reads. -/
theorem Deed.spared (gentle : P.Gentle) {c c' : Consumer (Layer.watched settings P) W}
    (deed : Deed c c') (agrees : c.Agrees) : Watch.Spared c.session c'.session := by
  have hreaders := agrees.readers
  cases deed with
  | stops | resumes | tallies | works => exact Watch.spared_of_flags fun _ => rfl
  | @connects result session phase going connects =>
      rcases Port.recorded_connect (Session.connect_eq connects) with ⟨hconnects, -⟩
      rw [session_afterConnect]
      exact Watch.spared_of_flags (gentle (Layer.connect_acts hconnects).plain)
  | begins phase going reads =>
      rw [phase] at hreaders
      intro _ _ reader hreader
      exact absurd (List.map_eq_nil_iff.1 hreaders ▸ hreader) List.not_mem_nil
  | @reads choice id reply session phase reads =>
      rw [phase] at hreaders
      rcases stepRead_turn agrees.distinct hreaders reads with
        ⟨read, progress, hturn, rfl, hafter, -⟩
      rcases Port.recorded_turn hturn with ⟨plain, hplain, rfl, -⟩
      rw [session_afterRead]
      cases plain with
      | going read' =>
          rcases (Layer.turn_cases hplain).acts_of_goesOn with hsame | hacts
          · exact Watch.spared_of_flags fun id => congrArg (·.scopes.flag id) hsame
          · exact Watch.spared_of_flags (gentle hacts.plain)
      | ended answer =>
          have hnone : session.readers = [] := by cases answer <;> exact hafter
          intro _ hids
          rw [hnone, hreaders] at hids
          cases hids
  | @finishes result session phase endings tasks closes =>
      rcases Port.recorded_close (Session.close_eq closes) with ⟨hcloses, -⟩
      have hflag := gentle (Layer.close_acts hcloses).plain
      exact Watch.spared_of_flags fun id => (hflag id).trans ((adds_scope c.session).flag id)
  | @reports id due job settlement session task passed reports =>
      rcases Session.report_eq_some reports with ⟨delivery, -, -, hsettle, -⟩
      rcases Port.recorded_settle hsettle with ⟨hsettles, -⟩
      cases houtcome : c.outcome job with
      | processed =>
          rw [houtcome] at hsettles
          have hflag := gentle (Layer.settle_acts hsettles).plain
          exact Watch.spared_of_flags hflag
      | failed failure =>
          rw [houtcome] at hsettles
          exact fun hqueued => absurd hqueued (Layer.settle_entries_ne hsettles)

/-! ## A frugal consumer -/

/-- How often the consumer has read again is covered by what its layer owes, which is covered
by what has failed.  Shutdown accounts for one more, but not while the consumer still reads. -/
structure Frugal (source : P.State) (a : Ambient) (c : Consumer (Layer.watched settings P) W) :
    Prop where
  drives : c.Drives source a
  undisturbed : Watch.Undisturbed source a c.session
  failures : c.phase ≠ .died → Watch.failures c.session ≤ c.failed
  reread : c.phase ≠ .died →
    c.report.reread ≤ Watch.owed c.session + if c.stopping then 1 else 0
  reading : ∀ id, c.phase = .reading id → c.report.reread ≤ Watch.owed c.session

theorem frugal_watching (source : P.State) (a : Ambient) (worker : W.State) (delay : Duration) :
    (watching settings source a worker delay).Frugal source a where
  drives := drives_watching source a worker delay
  undisturbed :=
    .step .begins (.scope _ false) fun _ _ _ _ hreader => absurd hreader List.not_mem_nil
  failures _ := Nat.zero_le _
  reread _ := Nat.zero_le _
  reading _ _ := Nat.zero_le _

/-- A move in which the consumer does not read, and pays for the failures that it reports,
leaves it frugal. -/
theorem Frugal.aside {source : P.State} {a : Ambient}
    {c c' : Consumer (Layer.watched settings P) W} (h : c.Frugal source a)
    (drives : c'.Drives source a) (undisturbed : Watch.Undisturbed source a c'.session)
    (stopping : c.stopping = true → c'.stopping = true)
    (phase : c'.phase = c.phase ∨ c.phase ≠ .died ∧ ∀ id, c'.phase ≠ .reading id)
    (owed : Watch.owed c.session ≤ Watch.owed c'.session)
    (reread : c'.report.reread = c.report.reread)
    (failed : Watch.failures c'.session + c.failed ≤ Watch.failures c.session + c'.failed) :
    c'.Frugal source a := by
  have hlives : c'.phase ≠ .died → c.phase ≠ .died := by
    rcases phase with hsame | ⟨hlives, -⟩
    · exact fun hlives => hsame ▸ hlives
    · exact fun _ => hlives
  refine ⟨drives, undisturbed, fun hphase => ?_, fun hphase => ?_, fun id hphase => ?_⟩
  · have hbefore := h.failures (hlives hphase)
    omega
  · have hbefore := h.reread (hlives hphase)
    rw [reread]
    split at hbefore
    next hstopping =>
      rw [if_pos (stopping hstopping)]
      omega
    next => omega
  · rcases phase with hsame | ⟨-, hnone⟩
    · have hbefore := h.reading id (hsame ▸ hphase)
      omega
    · exact absurd hphase (hnone id)

/-- After a turn of its read the consumer is as frugal as before: a read that comes back for
nothing is owed for, or shutdown was requested. -/
theorem Frugal.afterRead {source : P.State} {a : Ambient}
    {c : Consumer (Layer.watched settings P) W} (h : c.Frugal source a) (candid : P.Candid)
    (steady : P.Steady) (hreread : c.report.reread ≤ Watch.owed c.session)
    (hlives : c.phase ≠ .died) {session : Watch settings P} {choice : Choice}
    {point : (Layer.watched settings P).Point} {id : Nat}
    {progress : Progress (Layer.watched settings P).Read (Layer.watched settings P).Receipt}
    (takes : Watch.TakesTurn c.session session choice point id progress)
    (fails : ∀ error, progress = .ended (.failed error) →
      Watch.Fails c.session c.shutdown error session)
    (drives : (c.afterRead id session progress.reply).Drives source a)
    (undisturbed : Watch.Undisturbed source a session) :
    (c.afterRead id session progress.reply).Frugal source a := by
  have hreach := Watch.alone_of_only h.drives.reaches
  have hfailures : Watch.failures session ≤ c.failed := takes.failures_eq ▸ h.failures hlives
  have howed : (∀ reason, progress ≠ .ended (.died reason)) →
      c.report.reread ≤ Watch.owed session := by
    intro hreturned
    rcases Watch.exists_chronicle hreach with ⟨pushed, retried, hchronicle⟩
    exact hreread.trans (takes.owed_le hchronicle.ordered.marked hreturned)
  have hstill : (c.afterRead id session progress.reply).phase ≠ .died →
      ∀ reason, progress ≠ .ended (.died reason) := by
    rintro hphase reason rfl
    exact hphase rfl
  have hsession : (c.afterRead id session progress.reply).session = session :=
    session_afterRead _ _ _ _
  refine ⟨drives, by rwa [hsession], fun hphase => ?_, fun hphase => ?_, fun other hphase => ?_⟩
  · rw [hsession, failed_afterRead hphase]
    exact hfailures
  · rcases reread_afterRead c id session progress with hsame | ⟨error, rfl, hretryable, hmore, -⟩
    · rw [hsame, hsession]
      exact Nat.le_add_right_of_le (howed (hstill hphase))
    · rw [hmore, hsession]
      have halert := Watch.alert_of_reaches steady hreach
      rcases (fails error rfl).cancelled_or_owed candid steady h.drives.agrees.distinct halert
        (h.undisturbed.called steady) hretryable with ⟨-, hcancelled | ⟨-, hearned⟩⟩
      · rw [if_pos (stopping_afterRead.2 hcancelled)]
        exact Nat.succ_le_succ (howed (hstill hphase))
      · rw [hearned]
        exact Nat.le_add_right_of_le (Nat.succ_le_succ hreread)
  · have hlives : (c.afterRead id session progress.reply).phase ≠ .died := by simp [hphase]
    rcases reread_afterRead c id session progress with hsame | ⟨error, -, -, -, hready⟩
    · rw [hsame, hsession]
      exact howed (hstill hlives)
    · exact absurd (hready.symm.trans hphase) (by simp)

/-- A move that leaves the session as it is leaves the consumer frugal. -/
theorem Frugal.same {source : P.State} {a : Ambient} {c c' : Consumer (Layer.watched settings P) W}
    (h : c.Frugal source a) (drives : c'.Drives source a) (session : c'.session = c.session)
    (stopping : c.stopping = true → c'.stopping = true)
    (phase : c'.phase = c.phase ∨ c.phase ≠ .died ∧ ∀ id, c'.phase ≠ .reading id)
    (reread : c'.report.reread = c.report.reread) (failed : c'.failed = c.failed) :
    c'.Frugal source a := by
  refine h.aside drives (session ▸ h.undisturbed) stopping phase ?_ reread ?_
  · rw [session]
  · rw [session, failed]

/-- Whatever happens, a consumer stays frugal. -/
theorem Move.frugal (candid : P.Candid) (steady : P.Steady) (processes : W.Steady)
    {source : P.State} {a : Ambient} {c c' : Consumer (Layer.watched settings P) W}
    (move : Move Watch.ChangesSource c c') (spares : Watch.Spares c.session c'.session)
    (h : c.Frugal source a) : c'.Frugal source a := by
  have hdrives := move.drives steady processes h.drives
  have hundisturbed := move.undisturbed processes h.drives spares h.undisturbed
  have hstopping := move.stopping (Layer.steady_port steady.recorded).recorded processes
    h.drives.agrees.distinct
  have hfiled := Watch.filed_of_reaches (fun _ hf => hf) h.drives.reaches
  cases move with
  | changes hown =>
      rcases hown with ⟨g, rfl⟩
      exact h.aside hdrives hundisturbed hstopping (.inl rfl)
        (Watch.aside_change c.session g).owed_le rfl (Nat.le_refl _)
  | elapses grows =>
      exact h.aside hdrives hundisturbed hstopping (.inl rfl)
        (Watch.aside_elapse c.session _).owed_le rfl (Nat.le_refl _)
  | acts deed =>
  cases deed with
  | stops between stopping =>
      refine h.same hdrives rfl hstopping (.inr ⟨?_, by simp⟩) rfl rfl
      intro hdied
      simp [hdied, Phase.between] at between
  | resumes phase => exact h.same hdrives rfl hstopping (.inr ⟨by simp [phase], by simp⟩) rfl rfl
  | tallies phase =>
      exact h.same hdrives rfl hstopping (.inl rfl) (reread_tally c) (failed_tally c)
  | works => exact h.same hdrives rfl hstopping (.inl rfl) rfl rfl
  | @connects result session phase going connects =>
      have hnone : c.session.readers = [] := (h.drives.enters (.inl phase) going).1.1
      have haside : Watch.Aside c.session session := by
        rcases connects with ⟨rfl, rfl⟩
        exact Watch.aside_connect hnone rfl rfl rfl
      have hfailures := Watch.failures_connect connects
      rcases result with error | ⟨⟩
      · cases error <;>
          exact h.aside hdrives hundisturbed hstopping
            (.inr ⟨by simp [phase], by simp [afterConnect, pause]⟩) haside.owed_le rfl
            (by rw [session_afterConnect, hfailures]; rfl)
      · exact h.aside hdrives hundisturbed hstopping
          (.inr ⟨by simp [phase], by simp [afterConnect]⟩) haside.owed_le rfl
          (by rw [session_afterConnect, hfailures]; rfl)
  | @begins choice reply session phase going reads =>
      have henters := (h.drives.enters (.inr phase) going).1
      rcases Watch.takesTurn_startRead henters reads with ⟨progress, rfl, takes⟩
      have hreread := h.reread (by simp [phase])
      rw [going] at hreread
      rw [session_afterRead] at hundisturbed
      refine h.afterRead candid steady hreread (by simp [phase]) takes ?_ hdrives hundisturbed
      rintro error rfl
      exact .atOnce henters reads
  | @reads choice id reply session phase reads =>
      have hone : c.session.readers.map Reader.id = [id] := by
        rw [h.drives.agrees.readers, phase]
        rfl
      rcases List.map_eq_singleton_iff.1 hone with ⟨reader, hreader, rfl⟩
      rcases Watch.takesTurn_stepRead h.drives.agrees.distinct hreader reads with
        ⟨progress, rfl, takes⟩
      rw [session_afterRead] at hundisturbed
      refine h.afterRead candid steady (h.reading _ phase) (by simp [phase]) takes ?_ hdrives
        hundisturbed
      rintro error rfl
      have hmem : reader ∈ c.session.readers := hreader ▸ List.mem_singleton_self _
      have halert := Watch.alert_of_reaches steady (Watch.alone_of_only h.drives.reaches)
      rcases halert.awaits reader hmem with ⟨caller, hcaller, -⟩
      obtain rfl := Watch.callers_of_only h.drives.reaches caller (List.mem_of_getElem? hcaller)
      exact .later hmem hcaller reads
  | @finishes result session phase endings tasks closes =>
      have haside : Watch.Aside (c.session.scope false).2 session := by
        rcases closes with ⟨rfl, rfl⟩
        exact Watch.aside_close rfl rfl rfl
      have hfailures : Watch.failures session = Watch.failures (c.session.scope false).2 :=
        Watch.failures_close closes
      exact h.aside hdrives hundisturbed hstopping (.inr ⟨by simp [phase], by simp⟩)
        haside.owed_le rfl (by simp only [hfailures]; rfl)
  | @reports id due job settlement session task passed reports =>
      rcases Session.report_eq_some reports with ⟨delivery, hmem, -, hsettle, hreaders, hnext, -⟩
      have hfiled' : (c.processed job).Filed := hfiled
      have haside := Watch.aside_report hfiled' hmem hreaders hnext hsettle
      have hsame : Watch.failures (c.processed job) = Watch.failures c.session := rfl
      have hfailures : Watch.failures session = Watch.failures (c.processed job) +
          if (c.outcome job).isProcessed then 0 else 1 := Watch.failures_report reports
      have hending := isFailed_ending (c.outcome job) settlement
      refine h.aside hdrives hundisturbed hstopping (.inl rfl) haside.owed_le rfl ?_
      simp only [hfailures, hsame, failed, List.countP_append, List.countP_singleton]
      omega

/-- A consumer that nobody disturbs is frugal. -/
theorem Undisturbed.frugal (candid : P.Candid) (steady : P.Steady) (processes : W.Steady)
    {source : P.State} {a : Ambient} {worker : W.State} {delay : Duration}
    {c : Consumer (Layer.watched settings P) W}
    (h : Undisturbed settings source a worker delay c) : c.Frugal source a := by
  induction h with
  | begins => exact frugal_watching source a worker delay
  | step _ hstep hspares ih => exact hstep.move.frugal candid steady processes hspares ih

/-- Where neither the source nor anybody else around the layer cancels the scope of a read, no
read comes back for nothing, and a consumer that has come to its end has read again at most
once for every failure, and once more only if shutdown was requested. -/
theorem never_spins (candid : P.Candid) (steady : P.Steady) (processes : W.Steady)
    (source : P.State) (a : Ambient) (worker : W.State) (delay : Duration) :
    (∀ s : Watch settings P, Watch.Undisturbed source a s → s.Rereads) ∧
      ∀ c, Undisturbed settings source a worker delay c → c.phase = .finished →
        c.report.reread ≤ c.report.failed + 1 ∧
          (c.stopping = false → c.report.reread ≤ c.report.failed) := by
  refine ⟨fun s hs => hs.rereads candid steady, fun c hc hfinished => ?_⟩
  have hfrugal := hc.frugal candid steady processes
  have hlives : c.phase ≠ .died := by simp [hfinished]
  have howed := Watch.owed_le (Watch.alone_of_only hfrugal.drives.reaches)
  have hfailures := hfrugal.failures hlives
  have hreread := hfrugal.reread hlives
  have hcounted : c.failed = c.report.failed := by
    rw [failed, (hfrugal.drives.agrees.finished hfinished).2]
    rfl
  constructor
  · split at hreread <;> omega
  · intro hgoing
    rw [hgoing] at hreread
    simp only [Bool.false_eq_true, if_false] at hreread
    omega

/-! ## A run

A batch is read, and while the next read waits for more its processing fails.  That read
comes back for it, the next one serves it, and then the source ends. -/

namespace Tour

/-- Around a source that cancels no scope, nothing that happens in a run cancels that of a read. -/
theorem spared_happen (steady : P.Steady) (gentle : P.Gentle) {source : P.State} {a : Ambient}
    {c : Consumer (Layer.watched settings P) W} (hdrives : c.Drives source a)
    (happens : Happening P) : Watch.Spared c.session (happen c happens).session := by
  have hsame : Watch.Spared c.session c.session := Watch.spared_of_flags fun _ => rfl
  cases happens with
  | loop =>
      cases hstep : c.stepMain Watch.Tour.choice with
      | none => simpa [happen, goOn, hstep] using hsame
      | some c' =>
          have hspared := (deed_stepMain hstep).spared gentle hdrives.agrees
          simpa [happen, goOn, hstep] using hspared
  | task id =>
      cases hstep : c.stepTask id with
      | none => simpa [happen, workOn, hstep] using hsame
      | some c' =>
          have hspared := (deed_stepTask hstep).spared gentle hdrives.agrees
          simpa [happen, workOn, hstep] using hspared
  | stop =>
      intro _ _ reader hreader scope hscope
      have halert := Watch.alert_of_reaches steady (Watch.alone_of_only hdrives.reaches)
      rcases halert.awaits reader hreader with ⟨caller, -, hawaits⟩
      obtain rfl := (hawaits.of_scope hscope).1
      exact Ambient.flag_cancel_of_ne _ (hdrives.own _ List.mem_cons_self).2
  | change f => exact hsame

theorem undisturbed_run (steady : P.Steady) (gentle : P.Gentle) (processes : W.Steady)
    {source : P.State} {a : Ambient} {worker : W.State} {delay : Duration}
    {c : Consumer (Layer.watched settings P) W}
    (run : List (Happening P)) (h : Undisturbed settings source a worker delay c) :
    Undisturbed settings source a worker delay (run.foldl happen c) := by
  induction run generalizing c with
  | nil => exact h
  | cons happens run ih =>
      refine ih ?_
      have hdrives := h.reaches.drives steady processes
      have hown : ∀ f : P.State → P.State, happens = .change f →
          Watch.ChangesSource (@Watch.changeSource settings P f) := fun f _ => ⟨f, rfl⟩
      rcases step_happen c happens hown with hsame | hstep
      · exact hsame.symm ▸ h
      · exact h.step hstep fun _ => spared_happen steady gentle hdrives happens

/-- What happens until a read waits for more and the processing has failed. -/
def failsMeanwhile : List (Happening Memory.port) :=
  [.loop, .loop, .loop, .loop, .task 0, .loop, .loop, .loop, .loop, .task 0]

/-- What happens from then on. -/
def calledBack : List (Happening Memory.port) :=
  [.loop, .loop, .loop, .task 2, .task 2, .change Memory.closeInput, .loop, .loop, .loop, .loop,
    .loop, .loop]

/-- The consumer whose read waits while something has failed. -/
def waiting : Consumer (Layer.watched .default Memory.port) reluctant :=
  failsMeanwhile.foldl happen (watching .default opened (.start .epoch) false usualDelay)

/-- The same consumer at its end. -/
def called : Consumer (Layer.watched .default Memory.port) reluctant :=
  calledBack.foldl happen waiting

end Tour

/-- A read that a failure calls back is not one in vain, and there was one such read and one
failure. -/
theorem never_spins_tour :
    Undisturbed .default Tour.opened (.start .epoch) false usualDelay Tour.waiting ∧
      (Watch.queued Tour.waiting.session).length = 1 ∧ Watch.Rereads Tour.waiting.session ∧
        Undisturbed .default Tour.opened (.start .epoch) false usualDelay Tour.called ∧
          Tour.called.phase = .finished ∧ Tour.called.report.reread = 1 ∧
            Tour.called.report.reread ≤ Tour.called.report.failed := by
  have hwaiting : Undisturbed .default Tour.opened (.start .epoch) false usualDelay Tour.waiting :=
    Tour.undisturbed_run Memory.steady_port Memory.aloof_port.gentle Tour.steady_reluctant _ .begins
  have hcalled : Undisturbed .default Tour.opened (.start .epoch) false usualDelay Tour.called :=
    Tour.undisturbed_run Memory.steady_port Memory.aloof_port.gentle Tour.steady_reluctant _
      hwaiting
  have hfrugal := hwaiting.frugal Memory.candid_port Memory.steady_port Tour.steady_reluctant
  have hread := hfrugal.undisturbed
  have hfinished : Tour.called.phase = .finished := by rfl
  have hspins := @never_spins .default Memory.port Tour.reluctant Memory.candid_port
    Memory.steady_port Tour.steady_reluctant Tour.opened (.start .epoch) false usualDelay
  exact ⟨hwaiting, by decide +kernel, hspins.1 _ hread, hcalled, hfinished, by decide +kernel,
    (hspins.2 _ hcalled hfinished).2 (by decide +kernel)⟩

/-! ## A source that cancels the scopes of its reads

Whoever begins a read gives its scope to the source.  The source may cancel it, and give the
read up for that. -/

/-- A source that cancels the scope of a read as it begins, and gives the read up once its scope
is cancelled. -/
def officious : Port where
  State := Unit
  Read := Scope
  Receipt := Unit
  connect _ a s := (.ok (), a, s)
  close _ a s := (.ok (), a, s)
  start _ scope a s := (.going scope, a.cancel scope, s)
  step _ scope a s :=
    if a.scopes.IsCancelled scope then some (.ended (.failed .cancelled), a, s) else none
  wake _ _ := none
  settle _ _ a s := (.accepted, a, s)

/-- Its reads are known by their scopes. -/
theorem officious_runsIn {scope : Scope} {read : officious.Read}
    (h : officious.RunsIn scope read) : read = scope := by
  induction h with
  | start hstart =>
      cases hstart
      rfl
  | @step choice read a s read' a' s' _ hstep =>
      simp only [officious] at hstep
      split at hstep <;> cases hstep

theorem candid_officious : officious.Candid where
  cancelled {choice point scope a s a' s'} within turn := by
    cases point with
    | outside caller => cases turn
    | inside read =>
        obtain rfl := officious_runsIn within
        by_contra hopen
        exact absurd ((if_neg hopen).symm.trans turn) (by simp)
  timeout {choice point a s a' s'} turn := by
    cases point with
    | outside caller => cases turn
    | inside read =>
        simp only [Port.turn, officious] at turn
        split at turn <;> cases turn

theorem steady_officious : officious.Steady where
  turn {choice point a s progress a' s'} turn := by
    cases point with
    | outside caller =>
        cases turn
        exact a.grows_cancel caller
    | inside read =>
        simp only [Port.turn, officious] at turn
        split at turn <;> cases turn
        exact .refl a
  connect _ a _ := .refl a
  close _ a _ := .refl a
  settle _ _ a _ := .refl a

namespace Tour

/-- The source has been asked, and has cancelled the scope that it was given. -/
def meddled : Consumer (Layer.watched .default officious) reluctant :=
  [.loop, .loop, .loop].foldl happen (watching .default () (.start .epoch) false usualDelay)

/-- Two reads come back for nothing, and then the consumer is stopped. -/
def spun : Consumer (Layer.watched .default officious) reluctant :=
  [.loop, .loop, .loop, .loop, .stop, .loop, .loop].foldl happen meddled

theorem reaches_meddled : Reaches Watch.ChangesSource
    (watching .default () (.start .epoch) false usualDelay) meddled :=
  reaches_run .start _ fun f _ => ⟨f, rfl⟩

end Tour

/-- A candid source that cancels the scopes of its reads makes its consumer spin: a read comes
back for nothing, with nothing to serve, and so does the next one. -/
theorem spins_if_cancelled : officious.Candid ∧ officious.Steady ∧
    (∃ s : Watch .default officious, Session.Reaches (Watch.alone .default officious)
      (Watch.start .default () (.start .epoch)) s ∧ ¬s.Rereads) ∧
    ∃ c : Consumer (Layer.watched .default officious) Tour.reluctant,
      Reaches Watch.ChangesSource (watching .default () (.start .epoch) false usualDelay) c ∧
        c.phase = .finished ∧ c.report.failed + 1 < c.report.reread := by
  refine ⟨candid_officious, steady_officious, ⟨Tour.meddled.session, ?_, fun hrereads => ?_⟩,
    Tour.spun, ?_, rfl, by decide +kernel⟩
  · exact Watch.alone_of_only
      (Tour.reaches_meddled.drives steady_officious Tour.steady_reluctant).reaches
  · have hstep : Tour.meddled.session.stepRead Watch.Tour.choice 0 =
        some (some (.failed .cancelled), Tour.meddled.session.goOn Watch.Tour.choice 0) := rfl
    have hfails : Watch.Fails Tour.meddled.session Tour.meddled.shutdown .cancelled
        (Tour.meddled.session.goOn Watch.Tour.choice 0) :=
      .later (List.mem_singleton_self _) rfl hstep
    exact (hrereads _ _ _ hfails rfl (by decide +kernel)).1 rfl
  · exact Tour.reaches_run Tour.reaches_meddled _ fun f _ => ⟨f, rfl⟩

end Consumer
end Redelivery
