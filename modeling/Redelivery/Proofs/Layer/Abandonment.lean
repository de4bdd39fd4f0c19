import Redelivery.Proofs.Backoff
import Redelivery.Proofs.Layer.Order

/-!
# Delays that are given up

A read that serves the backlog takes the first entry, and advances its backoff before it
waits.  When the caller cancels, the entry is put back in front as it was, but for the
backoff: what is abandoned is the delivery and not the delay, so the next read of the entry
waits for the delay after it.

The sessions here are those of any number of reads at once.  A read is known by its number,
and what the other reads do meanwhile does not change what it has taken.

Main definitions:

* `Layer.TakesFirst`: what a read comes to as it begins with a backlog.
* `Watch.Paces`: a read holds an entry until its delay is over.
* `Watch.Abandons`, `Watch.Abandoned`: a read that is cancelled, and several in a row.
* `Watch.WaitsFor`: the delay before the first entry is delivered again.

Main results:

* Theorem `Watch.Paces.move`: what a read has taken is the same until it ends.
* Theorem `Watch.Paces.cancelled`: a read that is cancelled in time puts its entry back.
* Theorem `Watch.abandoned_keeps_entry`: an abandoned entry is first again, with its backoff
  advanced by the delays that were abandoned.
-/

namespace Redelivery

/-! ## A read that begins with a backlog -/

namespace Layer

variable {settings : Settings} {P : Port}

/-- What a read can come to as it begins with this entry first in the backlog: the entry is
delivered again at once, or has no next delay, or waits. -/
inductive TakesFirst (settings : Settings) (choice : Choice) (caller : Scope)
    (entry : Entry P.Receipt) (a : Ambient) : Going P → Ambient → Prop
  | redelivers {backoff : Backoff} {batch : Batch} {held : Held P.Receipt} {a' : Ambient}
      (atOnce : AtOnce settings choice entry backoff)
      (again : held.entry = { entry with attempts := entry.attempts + 1, backoff }) :
      TakesFirst settings choice caller entry a (.ended (.delivered batch held)) a'
  | breaks {reason : Duration.OutOfRange} {a' : Ambient}
      (next : entry.backoff.next choice.pick = .error reason) :
      TakesFirst settings choice caller entry a (.ended (.died reason.message)) a'
  | paces {delay : Duration} {backoff : Backoff}
      (late : settings.backoffAfter < entry.attempts + 1)
      (next : entry.backoff.next choice.pick = .ok (delay, backoff))
      (positive : delay.isZero = false) :
      TakesFirst settings choice caller entry a
        (.going (.pacing caller (a.childScope caller).1 { entry with backoff }
          (a.now + delay.clockMillis))) (a.childScope caller).2

/-- A read that begins with a backlog takes the first entry. -/
theorem Turn.takesFirst {choice : Choice} {caller : Scope} {a a' : Ambient}
    {layer layer' : Layer P} {progress : Going P}
    (turn : Turn settings choice a layer (.outside caller) progress a' layer')
    {entry : Entry P.Receipt} {rest : List (Entry P.Receipt)}
    (head : layer.backlog.entries = entry :: rest) :
    TakesFirst settings choice caller entry a progress a' := by
  cases turn with
  | arms empty => exact absurd empty (by simp [head])
  | redelivers head' atOnce hands =>
      obtain ⟨rfl, rfl⟩ := List.cons.inj (head.symm.trans head')
      exact .redelivers atOnce hands.entry_eq
  | breaks head' late next =>
      obtain ⟨rfl, rfl⟩ := List.cons.inj (head.symm.trans head')
      exact .breaks next
  | paces head' late next positive =>
      obtain ⟨rfl, rfl⟩ := List.cons.inj (head.symm.trans head')
      exact .paces late next positive
  | asks asks | receives asks | fails asks | dies asks => cases asks
  | ends atEnd | holds atEnd =>
      cases atEnd with
      | answered asks => cases asks

end Layer

namespace Watch

variable {settings : Settings} {P : Port}

/-! ## Turns of one read among others -/

/-- A read that begins takes a turn of the layer. -/
theorem turn_startRead {s s' : Watch settings P} {choice : Choice} {caller : Scope}
    {reply : Option Reply} (h : s.startRead choice caller = (reply, s')) :
    ∃ (progress : Layer.Going P.recorded) (number delivery : Nat) (a : Ambient)
        (layer : Layer P.recorded),
      Layer.Turn settings choice s.ambient s.layer (.outside caller) progress a layer ∧
        s'.ambient = a ∧ s'.layer = layer ∧ reply = progress.reply ∧
        s'.readers = s.readers ++ Reader.after s.next (progress.numbered number delivery) ∧
        s'.next = s.next + 1 := by
  rcases hstart : (Layer.watched settings P).start choice caller s.ambient s.state with
    ⟨progress, a, state⟩
  have hturn : (Layer.watched settings P).turn choice (.outside caller) s.ambient s.state =
      some (progress, a, state) := congrArg some hstart
  rcases Port.recorded_turn hturn with ⟨plain, hplain, rfl, -⟩
  rw [Session.startRead_eq hstart] at h
  rcases Prod.mk.inj h with ⟨rfl, rfl⟩
  exact ⟨plain, _, _, _, _, Layer.turn_cases hplain, rfl, rfl, Progress.reply_numbered .., rfl,
    rfl⟩

/-- A read that goes on takes a turn of the layer from where it stands. -/
theorem turn_stepRead {s s' : Watch settings P} (hs : s.Distinct) {choice : Choice} {id : Nat}
    {reply : Option Reply} (h : s.stepRead choice id = some (reply, s')) :
    ∃ reader ∈ s.readers, reader.id = id ∧
      ∃ (progress : Layer.Going P.recorded) (a : Ambient) (layer : Layer P.recorded),
        Layer.Turn settings choice s.ambient s.layer (.inside reader.read.value) progress a
          layer ∧
        s'.layer = layer ∧ reply = progress.reply := by
  rcases Session.stepRead_eq_some hs h with
    ⟨before, after, read, progress, a, state, hreaders, hstep, rfl, rfl⟩
  have hturn : (Layer.watched settings P).turn choice (.inside read) s.ambient s.state =
      some (progress, a, state) := hstep
  rcases Port.recorded_turn hturn with ⟨plain, hplain, rfl, -⟩
  have hmem : ⟨id, read⟩ ∈ s.readers := by simp [hreaders]
  exact ⟨⟨id, read⟩, hmem, rfl, plain, _, _, Layer.turn_cases hplain, rfl,
    Progress.reply_numbered ..⟩

/-! ## A read that holds an entry -/

/-- Unless the read with this number has ended, it holds the entry until it is due or the
caller cancels. -/
structure Paces (s : Watch settings P) (id : Nat) (caller : Scope)
    (entry : Entry (Numbered P.Receipt)) (due : Nat) : Prop where
  begun : id < s.next
  holds : ∀ reader ∈ s.readers, reader.id = id →
    ∃ scope, reader.read.value = .pacing caller scope entry due

/-- A read that begins with a backlog and does not end at once holds the first entry. -/
theorem paces_startRead {s s' : Watch settings P} (hs : s.Distinct) {choice : Choice}
    {caller : Scope} (h : s.startRead choice caller = (none, s'))
    {entry : Entry (Numbered P.Receipt)} {rest : List (Entry (Numbered P.Receipt))}
    (head : s.queued = entry :: rest) :
    settings.backoffAfter < entry.attempts + 1 ∧ (∃ reader ∈ s'.readers, reader.id = s.next) ∧
      ∃ due, s'.ambient.now < due ∧
        s'.Paces s.next caller { entry with backoff := entry.backoff.advanced } due := by
  rcases turn_startRead h with
    ⟨progress, number, delivery, a, layer, hturn, hambient, -, hreply, hreaders, hnext⟩
  cases hturn.takesFirst head with
  | redelivers | breaks => cases hreply
  | @paces delay _ late next positive =>
      obtain rfl := Backoff.next_eq_ok next
      have hnow : s'.ambient.now = s.ambient.now := by rw [hambient]; rfl
      have htick := Duration.clockMillis_pos positive
      refine ⟨late, ?_, s.ambient.now + delay.clockMillis, by omega, by omega, ?_⟩
      · rw [hreaders]
        exact ⟨_, List.mem_append_right _ (List.mem_singleton_self _), rfl⟩
      · intro reader hreader hid
        rw [hreaders, List.mem_append] at hreader
        rcases hreader with hold | hnew
        · -- The number is new.
          have hlt := hs.lt_next reader.id (by simpa using .inl ⟨reader, hold, rfl⟩)
          omega
        · obtain rfl := List.mem_singleton.1 hnew
          exact ⟨_, rfl⟩

/-- What a read has taken is the same until it ends. -/
theorem Paces.move {D : Discipline (Layer.watched settings P)} {s s' : Watch settings P}
    {id : Nat} {caller : Scope} {entry : Entry (Numbered P.Receipt)} {due : Nat}
    (h : s.Paces id caller entry due) (move : s.Move D s') : s'.Paces id caller entry due := by
  cases move with
  | @turns choice point turned before after progress a state enters readers turn =>
      constructor
      · cases point with
        | outside caller => exact Nat.lt_succ_of_lt h.begun
        | inside read => exact h.begun
      · intro reader hreader hid
        simp only [List.mem_append] at hreader
        have hothers : reader ∈ before ∨ reader ∈ after → reader ∈ s.readers := by
          rw [readers]
          simp only [List.mem_append]
          tauto
        rcases hreader with (hbefore | hturned) | hafter
        · exact h.holds reader (hothers (.inl hbefore)) hid
        · -- A read that goes on is not this one, whose turn ends it.
          obtain rfl : reader.id = turned := by
            cases progress with
            | going read =>
                obtain rfl := List.mem_singleton.1 hturned
                rfl
            | ended answer => cases hturned
          cases point with
          | outside caller =>
              have hnew := (enters caller rfl).2
              have hbegun := h.begun
              omega
          | inside read =>
              have hmem : ⟨reader.id, read⟩ ∈ s.readers := by simp [readers, Port.Point.readers]
              rcases h.holds _ hmem hid with ⟨scope, hread⟩
              have hpaced : read.value.entries ≠ [] := by
                rw [show read.value = _ from hread]
                exact List.cons_ne_nil _ _
              rw [ended_of_paced hpaced turn] at hturned
              cases hturned
        · exact h.holds reader (hothers (.inr hafter)) hid
  | reports | connects | closes | changes | elapses => exact ⟨h.begun, h.holds⟩

/-- What a read has taken is the same as long as it is in progress. -/
theorem Paces.reaches {D : Discipline (Layer.watched settings P)} {s s' : Watch settings P}
    (hs : s.Distinct) {id : Nat} {caller : Scope} {entry : Entry (Numbered P.Receipt)} {due : Nat}
    (h : s.Paces id caller entry due) (reaches : Session.Reaches D s s') :
    s'.Paces id caller entry due :=
  reaches.induct hs h fun _ _ => Paces.move

/-- A read that ends cancelled puts the entry back in front. -/
theorem Paces.putsBack {s s' : Watch settings P} (hs : s.Distinct) {id : Nat} {caller : Scope}
    {entry : Entry (Numbered P.Receipt)} {due : Nat} (h : s.Paces id caller entry due)
    {choice : Choice} (step : s.stepRead choice id = some (some (.failed .cancelled), s')) :
    s.ambient.scopes.IsCancelled caller ∧ s'.queued = entry :: s.queued := by
  rcases turn_stepRead hs step with
    ⟨reader, hreader, hid, progress, a, layer, hturn, hlayer, hreply⟩
  rcases h.holds reader hreader hid with ⟨scope, hread⟩
  rw [hread] at hturn
  obtain rfl := Progress.eq_failed hreply.symm
  cases hturn with
  | putsBack cancelled => exact ⟨cancelled, by rw [queued, hlayer]; rfl⟩
  | fails asks => cases asks

/-- If the caller cancels before the delay is over, the read can go on, and ends cancelled. -/
theorem Paces.cancelled {s : Watch settings P} {id : Nat} {caller : Scope}
    {entry : Entry (Numbered P.Receipt)} {due : Nat} (h : s.Paces id caller entry due)
    (inside : ∃ reader ∈ s.readers, reader.id = id)
    (cancelled : s.ambient.scopes.IsCancelled caller) (early : s.ambient.now < due)
    (choice : Choice) : ∃ s', s.stepRead choice id = some (some (.failed .cancelled), s') := by
  cases hfind : s.readers.find? (·.id = id) with
  | none =>
      rcases inside with ⟨reader, hreader, hid⟩
      exact absurd hid (by simpa using List.find?_eq_none.1 hfind reader hreader)
  | some reader =>
      have hid : reader.id = id := by simpa using List.find?_some hfind
      rcases h.holds reader (List.mem_of_find?_eq_some hfind) hid with ⟨scope, hread⟩
      have hwaited : choice.waited (s.ambient.scopes.IsCancelled caller)
          (due ≤ s.ambient.now) = some true := by
        simp [Choice.waited, cancelled, early]
      have hstep : Layer.step settings choice reader.read.value s.ambient s.layer =
          some (.ended (.failed .cancelled), s.ambient.cancel scope,
            { s.layer with backlog := s.layer.backlog.putBack entry }) := by
        rw [hread, Layer.step, hwaited]
        rfl
      have hreply : (s.stepRead choice id).map Prod.fst = some (some (.failed .cancelled)) := by
        simp only [Session.stepRead, hfind, hstep, Option.bind_eq_bind, Option.bind_some,
          Option.map_some]
        rfl
      rcases Option.map_eq_some_iff.1 hreply with ⟨⟨reply, s'⟩, hstepped, rfl⟩
      exact ⟨s', hstepped⟩

/-! ## Reads that are abandoned -/

/-- A read begins in a session, and waits while anything may happen to it, until it ends
cancelled. -/
inductive Abandons (s₀ : Watch settings P) : Watch settings P → Prop
  | intro {choice choice' : Choice} {caller : Scope} {s s' : Watch settings P}
      (begins : (s₀.startRead choice caller).1 = none)
      (waits : Session.Reaches (anyone settings P) (s₀.startRead choice caller).2 s)
      (ends : s.stepRead choice' s₀.next = some (some (.failed .cancelled), s')) :
      Abandons s₀ s'

/-- A read that holds an entry is abandoned if its caller cancels at once. -/
theorem abandons_cancel {s : Watch settings P} (hs : s.Distinct)
    {entry : Entry (Numbered P.Receipt)} {rest : List (Entry (Numbered P.Receipt))}
    (head : s.queued = entry :: rest) {choice : Choice} {caller : Scope}
    (begins : (s.startRead choice caller).1 = none)
    (cancelled : ((s.startRead choice caller).2.cancel caller).ambient.scopes.IsCancelled caller)
    (choice' : Choice) :
    s.Abandons (((s.startRead choice caller).2.cancel caller).goOn choice' s.next) := by
  have hstart : Session.Step (anyone settings P) s (s.startRead choice caller).2 :=
    .startRead choice trivial
  have hcancels : Session.Reaches (anyone settings P) (s.startRead choice caller).2
      ((s.startRead choice caller).2.cancel caller) := .step .start (.cancel _ caller)
  have hbegun := (hstart.move hs).distinct hs
  rcases paces_startRead hs (Prod.ext begins rfl) head with ⟨-, hinside, due, hearly, hpaces⟩
  rcases (hpaces.reaches hbegun hcancels).cancelled hinside cancelled hearly choice' with
    ⟨s', hends⟩
  have heq : ((s.startRead choice caller).2.cancel caller).goOn choice' s.next = s' := by
    rw [Session.goOn, hends]
    rfl
  exact heq ▸ .intro begins hcancels hends

/-- Beginning with this session so many reads take the first entry of the backlog and are
abandoned, one after the other.  Between them anything may happen that leaves the entry
first. -/
inductive Abandoned (s₀ : Watch settings P) : Nat → Watch settings P → Prop
  | none : Abandoned s₀ 0 s₀
  | idles {n : Nat} {s s' : Watch settings P} : Abandoned s₀ n s →
      Session.Step (anyone settings P) s s' → s'.queued.head? = s.queued.head? →
        Abandoned s₀ n s'
  | again {n : Nat} {s s' : Watch settings P} : Abandoned s₀ n s → s.Abandons s' →
      Abandoned s₀ (n + 1) s'

/-- The first entry of the backlog is first again after a read that is abandoned, as it was
but for its backoff. -/
theorem Abandons.queued {s s' : Watch settings P} (hs : s.Distinct)
    {entry : Entry (Numbered P.Receipt)} {rest : List (Entry (Numbered P.Receipt))}
    (head : s.queued = entry :: rest) (h : s.Abandons s') :
    s'.Distinct ∧ settings.backoffAfter < entry.attempts + 1 ∧
      ∃ others, s'.queued = { entry with backoff := entry.backoff.advanced } :: others := by
  cases h with
  | @intro choice choice' caller t _ begins waits ends =>
      have hstart : Session.Step (anyone settings P) s (s.startRead choice caller).2 :=
        .startRead choice trivial
      have hbegun := (hstart.move hs).distinct hs
      have hwaits := waits.distinct hbegun
      rcases paces_startRead hs (Prod.ext begins rfl) head with ⟨hlate, -, due, -, hpaces⟩
      have hback := (hpaces.reaches hbegun waits).putsBack hwaits ends
      have hends : Session.Step (anyone settings P) t s' := .stepRead ends
      exact ⟨(hends.move hwaits).distinct hwaits, hlate, t.queued, hback.2⟩

/-- So it is after any number of such reads. -/
theorem Abandoned.head {s₀ s : Watch settings P} (hs₀ : s₀.Distinct)
    {entry : Entry (Numbered P.Receipt)} {rest : List (Entry (Numbered P.Receipt))}
    (head : s₀.queued = entry :: rest) {n : Nat} (h : s₀.Abandoned n s) :
    s.Distinct ∧
      s.queued.head? = some { entry with backoff := Backoff.advanced^[n] entry.backoff } ∧
      (0 < n → settings.backoffAfter < entry.attempts + 1) := by
  induction h with
  | none => exact ⟨hs₀, by rw [head]; rfl, fun h => absurd h (Nat.lt_irrefl 0)⟩
  | idles _ step same ih =>
      rcases ih with ⟨hs, hhead, hlate⟩
      exact ⟨(step.move hs).distinct hs, same.trans hhead, hlate⟩
  | again _ abandons ih =>
      rcases ih with ⟨hs, hhead, -⟩
      rcases List.head?_eq_some_iff.1 hhead with ⟨others, hqueued⟩
      rcases abandons.queued hs hqueued with ⟨hs', hlate, others', hqueued'⟩
      refine ⟨hs', ?_, fun _ => hlate⟩
      rw [hqueued', Function.iterate_succ_apply']
      rfl

/-! ## How long the next read waits -/

/-- A read that begins in this session delivers the first entry of the backlog again after
this delay, and at once if it is none. -/
inductive WaitsFor (s : Watch settings P) (choice : Choice) (caller : Scope) (delay : Duration) :
    Prop
  | atOnce {batch : Batch} (zero : delay.isZero = true)
      (delivers : (s.startRead choice caller).1 = some (.delivered batch)) :
      WaitsFor s choice caller delay
  | pauses {number : Nat} {scope : Scope} {entry : Entry (Numbered P.Receipt)}
      (positive : delay.isZero = false) (begins : (s.startRead choice caller).1 = none)
      (readers : (s.startRead choice caller).2.readers = s.readers ++
        [⟨s.next, number, .pacing caller scope entry (s.ambient.now + delay.clockMillis)⟩]) :
      WaitsFor s choice caller delay

/-- Without jitter a read waits for the interval of the first entry. -/
theorem waitsFor_of_head {s : Watch settings P} {entry : Entry (Numbered P.Receipt)}
    {rest : List (Entry (Numbered P.Receipt))} (head : s.queued = entry :: rest)
    (late : settings.backoffAfter < entry.attempts + 1)
    (unjittered : Backoff.jitter? entry.backoff.policy.randomization = none) (choice : Choice)
    (caller : Scope) : s.WaitsFor choice caller entry.backoff.current := by
  rcases hread : s.startRead choice caller with ⟨reply, s'⟩
  rcases turn_startRead hread with
    ⟨progress, number, delivery, a, layer, hturn, -, -, hreply, hreaders, -⟩
  have hnext := Backoff.next_of_unjittered unjittered choice.pick
  cases hturn.takesFirst head with
  | redelivers atOnce =>
      cases atOnce with
      | early h => exact absurd late h
      | noDelay _ next zero =>
          rw [hnext] at next
          obtain ⟨rfl, -⟩ := Prod.mk.inj (Except.ok.inj next)
          exact .atOnce zero (by rw [hread, hreply]; rfl)
  | breaks next =>
      rw [hnext] at next
      cases next
  | paces _ next positive =>
      rw [hnext] at next
      obtain ⟨rfl, -⟩ := Prod.mk.inj (Except.ok.inj next)
      exact .pauses positive (by rw [hread, hreply]; rfl) (by rw [hread]; exact hreaders)

/-- When reads take the first entry of the backlog and are abandoned, any number of them in a
row, the entry is first again, as it was but for its backoff, which has advanced by as many
delays.  Without jitter the next read of the entry waits for the delay that is as many places
later in its series. -/
theorem abandoned_keeps_entry {source : P.State} {a : Ambient} {s₀ s : Watch settings P}
    (h : Session.Reaches (anyone settings P) (start settings source a) s₀)
    {entry : Entry (Numbered P.Receipt)} {rest : List (Entry (Numbered P.Receipt))}
    (head : s₀.queued = entry :: rest) {n : Nat} (abandoned : s₀.Abandoned n s) :
    s.queued.head? = some { entry with backoff := Backoff.advanced^[n] entry.backoff } ∧
      (0 < n → settings.backoffAfter < entry.attempts + 1) ∧
      (settings.backoffAfter < entry.attempts + 1 →
        Backoff.jitter? entry.backoff.policy.randomization = none →
          ∀ choice caller,
            s.WaitsFor choice caller (Backoff.advanced^[n] entry.backoff).current) := by
  rcases abandoned.head (h.distinct (Session.distinct_new _ _)) head with ⟨-, hhead, hlate⟩
  refine ⟨hhead, hlate, ?_⟩
  intro late unjittered choice caller
  rcases List.head?_eq_some_iff.1 hhead with ⟨others, hqueued⟩
  refine waitsFor_of_head hqueued late ?_ choice caller
  rw [Backoff.policy_iterate]
  exact unjittered

/-! ## Two reads in a row

From the first redelivery on delays are twice as long each time, beginning with ten
milliseconds.  A batch fails, and two reads that would deliver it again are abandoned. -/

namespace Doubling

def doubling : Settings where
  backoff := ⟨.ofMillis 10, .ofMillis 1000, .ofNat 2, .zero⟩
  backoffAfter := 0
  drainPoll := .ofMillis 10

abbrev Layered := Watch doubling Memory.port

/-- Nobody has used the layer. -/
def unused : Layered := start doubling (.finite [Tour.batch]) (.start .epoch)

/-- A read begins. -/
def read (s : Layered) : Layered := (s.startRead Tour.choice Tour.caller).2

/-- Somebody has a scope; the batch is delivered, and fails. -/
def failed : Layered :=
  (((read (unused.scope false).2).goOn Tour.choice 0).goOn Tour.choice 0).told 0
    (.failed (.whole "full"))

/-- A read begins, and is cancelled. -/
def abandon (s : Layered) : Layered := ((read s).cancel Tour.caller).goOn Tour.choice s.next

theorem reached_failed : Session.Reaches (anyone doubling Memory.port) unused failed := by
  have hopened : Session.Reaches (anyone doubling Memory.port) unused (unused.scope false).2 :=
    .step .start (.scope _ false)
  have hread : Session.Reaches (anyone doubling Memory.port) unused (read (unused.scope false).2) :=
    hopened.step (.startRead Tour.choice trivial)
  exact ((hread.goOn Tour.choice 0).goOn Tour.choice 0).told 0 _

theorem distinct_failed : failed.Distinct :=
  reached_failed.distinct (Session.distinct_new _ _)

/-- A read of the only entry is abandoned, if it holds the entry. -/
theorem abandons_abandon {s : Layered} (hs : s.Distinct) (length : s.queued.length = 1)
    (begins : (s.startRead Tour.choice Tour.caller).1.isNone)
    (cancelled : ((read s).cancel Tour.caller).ambient.scopes.IsCancelled Tour.caller) :
    s.Abandons (abandon s) := by
  rcases List.length_eq_one_iff.1 length with ⟨entry, hentry⟩
  exact abandons_cancel hs hentry (Option.isNone_iff_eq_none.1 begins) cancelled Tour.choice

theorem abandons_failed : failed.Abandons (abandon failed) :=
  abandons_abandon distinct_failed (by decide +kernel) (by decide +kernel) (by decide +kernel)

theorem abandons_again : (abandon failed).Abandons (abandon (abandon failed)) := by
  rcases List.length_eq_one_iff.1 (show failed.queued.length = 1 by decide +kernel) with
    ⟨entry, hentry⟩
  have hs : (abandon failed).Distinct := (abandons_failed.queued distinct_failed hentry).1
  exact abandons_abandon hs (by decide +kernel) (by decide +kernel) (by decide +kernel)

end Doubling

/-- Two reads of a batch are abandoned, and then it waits for forty milliseconds. -/
theorem abandoned_keeps_entry_twice :
    Doubling.failed.Abandoned 2 (Doubling.abandon (Doubling.abandon Doubling.failed)) ∧
      ∃ entry, Doubling.failed.queued = [entry] ∧
        (Doubling.abandon (Doubling.abandon Doubling.failed)).queued.head? =
          some { entry with backoff := Backoff.advanced^[2] entry.backoff } ∧
        ∀ choice caller,
          (Doubling.abandon (Doubling.abandon Doubling.failed)).WaitsFor choice caller
            (.ofMillis 40) := by
  have habandoned : Doubling.failed.Abandoned 2
      (Doubling.abandon (Doubling.abandon Doubling.failed)) :=
    .again (.again .none Doubling.abandons_failed) Doubling.abandons_again
  refine ⟨habandoned, ?_⟩
  rcases List.length_eq_one_iff.1 (show Doubling.failed.queued.length = 1 by decide +kernel) with
    ⟨entry, hentry⟩
  rcases abandoned_keeps_entry Doubling.reached_failed hentry habandoned with
    ⟨hhead, hlate, hwaits⟩
  have hpolicy : entry.backoff.policy = Doubling.doubling.backoff := by
    have hpolicies : Doubling.failed.queued.map (·.backoff.policy) =
        [Doubling.doubling.backoff] := by
      decide +kernel
    rw [hentry] at hpolicies
    exact List.singleton_inj.1 hpolicies
  have hunjittered : Backoff.jitter? entry.backoff.policy.randomization = none := by
    rw [hpolicy]
    decide +kernel
  have hcurrent : (Backoff.advanced^[2] entry.backoff).current = .ofMillis 40 := by
    have hhead' : (Doubling.abandon (Doubling.abandon Doubling.failed)).queued.head?.map
        (·.backoff.current) = some (.ofMillis 40) := by
      decide +kernel
    rw [hhead] at hhead'
    exact Option.some.inj hhead'
  refine ⟨entry, hentry, hhead, ?_⟩
  intro choice caller
  rw [← hcurrent]
  exact hwaits (hlate (by decide)) hunjittered choice caller

/-- A batch that was to be delivered again after ten milliseconds is put back by a read that
is cancelled at once, and then waits for twenty. -/
theorem waits_longer_if_abandoned :
    Doubling.failed.Abandoned 1 (Doubling.abandon Doubling.failed) ∧
      (Doubling.read Doubling.failed).wake? = some 10 ∧
      (Doubling.abandon Doubling.failed).ambient.now = 0 ∧
      (Doubling.read (Doubling.abandon Doubling.failed)).wake? = some 20 ∧
      (Doubling.abandon Doubling.failed).queued.head? ≠ Doubling.failed.queued.head? := by
  refine ⟨.again .none Doubling.abandons_failed, by decide +kernel, by decide +kernel,
    by decide +kernel, ?_⟩
  intro hsame
  have hbefore : (Doubling.failed.queued.head?.map (·.backoff.current)) = some (.ofMillis 10) := by
    decide +kernel
  have hafter : (Doubling.abandon Doubling.failed).queued.head?.map (·.backoff.current) =
      some (.ofMillis 20) := by
    decide +kernel
  rw [hsame, hbefore] at hafter
  exact absurd hafter (by decide)

end Watch

end Redelivery
