import Redelivery.Proofs.Jitter
import Redelivery.Proofs.Layer.Commutation
import Redelivery.Proofs.Layer.Diagnostics

/-!
# Retries without end

An entry is delivered again as often as it fails.  Its attempts are a number of 32 bits: they
are one more each time, but after `2 ^ 32` times they begin anew, and with them the deliveries
that do not wait.  A read that takes the entry hands it out, at once or after its delay.  Where
what was drawn is no delay the read breaks off, and the entry is lost; with settings that were
loaded that does not happen.

Main definitions:

* `Watch.HandsAgain`, `Watch.BreaksOff`: what a read comes to that takes the first entry.
* `Watch.Endures`: how the entries of a session are counted and handed out again.
* `Watch.Relentless`: a batch that has failed so often.

Main results:

* Theorem `Watch.handsAgain_or_breaksOff`: a read hands out what it takes, or breaks off.
* Theorem `Watch.Diary.inSeries`: every backoff is in the series of the settings.
* Theorem `Watch.endures`: every entry endures, and its attempts wrap around.
* Theorem `Watch.Relentless.exists_failed`: a batch can fail any number of times.
-/

namespace Redelivery

/-- The backoff of an entry that goes on stays where it is in its series, or advances. -/
theorem Entry.Goes.backoff_cases {ρ : Type} {settings : Settings} {entry entry' : Entry ρ}
    {taken again : List (Entry ρ)} (goes : entry.Goes settings taken again entry') :
    entry'.backoff = entry.backoff ∨ entry'.backoff = entry.backoff.advanced := by
  cases goes with
  | fails => exact .inl rfl
  | early h eq | resumes eq => exact .inl (by rw [eq])
  | atOnce h eq => exact .inr (by rw [eq])
  | pauses => exact .inr rfl

/-- There is one backoff with which an entry is delivered again at once. -/
theorem Layer.AtOnce.eq {settings : Settings} {P : Port} {choice : Choice}
    {entry : Entry P.Receipt} {backoff backoff' : Backoff}
    (h : AtOnce (P := P) settings choice entry backoff)
    (h' : AtOnce (P := P) settings choice entry backoff') : backoff' = backoff := by
  cases h with
  | early hearly =>
      cases h' with
      | early => rfl
      | noDelay hlate => exact absurd hlate hearly
  | noDelay hlate next =>
      cases h' with
      | early hearly => exact absurd hlate hearly
      | noDelay _ next' => rw [Backoff.next_eq_ok next', Backoff.next_eq_ok next]

namespace Watch

variable {settings : Settings} {P : Port}

/-! ## A read that takes an entry -/

/-- A read that begins hands the entry out with one more attempt: at once, or as soon as its
delay is over, unless its caller has cancelled. -/
inductive HandsAgain (s : Watch settings P) (choice : Choice) (caller : Scope)
    (entry : Entry (Numbered P.Receipt)) : Prop
  | atOnce {backoff : Backoff} (h : Layer.AtOnce (P := P.recorded) settings choice entry backoff)
      (delivers : s.DeliversAtOnce choice caller
        { entry with attempts := entry.attempts + 1, backoff })
  | later {due : Nat} (late : settings.backoffAfter < entry.attempts + 1)
      (begins : (s.startRead choice caller).1 = none)
      (inside : ∃ reader ∈ (s.startRead choice caller).2.readers, reader.id = s.next)
      (awaits : ∀ t : Watch settings P,
        Session.Reaches (anyone settings P) (s.startRead choice caller).2 t →
        (∃ reader ∈ t.readers, reader.id = s.next) →
          t.Awaits s.next caller { entry with backoff := entry.backoff.advanced } due)

/-- A read that begins breaks off: the entry is to wait, and what was drawn is no delay. -/
structure BreaksOff (s : Watch settings P) (choice : Choice) (caller : Scope)
    (entry : Entry (Numbered P.Receipt)) : Prop where
  late : settings.backoffAfter < entry.attempts + 1
  next : entry.backoff.next choice.pick = .error .tooLong
  dies : (s.startRead choice caller).1 = some (.died Duration.OutOfRange.tooLong.message)

section

variable {s : Watch settings P} {choice : Choice} {caller : Scope}
  {entry : Entry (Numbered P.Receipt)} {rest : List (Entry (Numbered P.Receipt))}

theorem reply_of_breaks (head : s.queued = entry :: rest)
    (late : settings.backoffAfter < entry.attempts + 1) {reason : Duration.OutOfRange}
    (next : entry.backoff.next choice.pick = .error reason) :
    (s.startRead choice caller).1 = some (.died reason.message) := by
  rcases hread : s.startRead choice caller with ⟨reply, s'⟩
  rcases turn_startRead hread with ⟨progress, _, _, a, layer, hturn, -, -, hreply, -⟩
  cases hturn.takesFirst head with
  | redelivers atOnce =>
      cases atOnce with
      | early h => exact absurd late h
      | noDelay _ next' =>
          rw [next] at next'
          cases next'
  | breaks next' =>
      rw [next] at next'
      rw [hreply, Except.error.inj next']
      rfl
  | paces _ next' =>
      rw [next] at next'
      cases next'

theorem reply_of_paces (head : s.queued = entry :: rest)
    (late : settings.backoffAfter < entry.attempts + 1) {delay : Duration} {backoff : Backoff}
    (next : entry.backoff.next choice.pick = .ok (delay, backoff))
    (positive : delay.isZero = false) : (s.startRead choice caller).1 = none := by
  rcases hread : s.startRead choice caller with ⟨reply, s'⟩
  rcases turn_startRead hread with ⟨progress, _, _, a, layer, hturn, -, -, hreply, -⟩
  cases hturn.takesFirst head with
  | redelivers atOnce =>
      cases atOnce with
      | early h => exact absurd late h
      | noDelay _ next' zero =>
          rw [next] at next'
          obtain ⟨rfl, -⟩ := Prod.mk.inj (Except.ok.inj next')
          rw [positive] at zero
          cases zero
  | breaks next' =>
      rw [next] at next'
      cases next'
  | paces => exact hreply

/-- An entry that is not to wait is delivered at once. -/
theorem deliversAtOnce (head : s.queued = entry :: rest) {backoff : Backoff}
    (h : Layer.AtOnce (P := P.recorded) settings choice entry backoff) (caller : Scope) :
    s.DeliversAtOnce choice caller { entry with attempts := entry.attempts + 1, backoff } := by
  refine deliversAtOnce_of_turn head (fun _ => h.eq) ?_
  intro late
  cases h with
  | early hearly => exact absurd late hearly
  | noDelay _ next zero => exact ⟨_, next, zero⟩

/-- A read that begins hands the first entry out again, unless what was drawn is no delay. -/
theorem handsAgain_or_breaksOff (hs : s.Distinct) (head : s.queued = entry :: rest)
    (choice : Choice) (caller : Scope) :
    s.HandsAgain choice caller entry ∨ s.BreaksOff choice caller entry := by
  by_cases hlate : settings.backoffAfter < entry.attempts + 1
  · cases hnext : entry.backoff.next choice.pick with
    | error reason =>
        obtain rfl := (Backoff.next_eq_error.1 hnext).1
        exact .inr ⟨hlate, hnext, reply_of_breaks head hlate hnext⟩
    | ok drawn =>
        obtain ⟨delay, backoff⟩ := drawn
        left
        cases hzero : delay.isZero with
        | true =>
            have hatOnce : Layer.AtOnce (P := P.recorded) settings choice entry backoff :=
              .noDelay hlate hnext hzero
            exact .atOnce hatOnce (deliversAtOnce head hatOnce caller)
        | false =>
            have hbegins : (s.startRead choice caller).1 = none :=
              reply_of_paces head hlate hnext hzero
            rcases paces_startRead hs (Prod.ext hbegins rfl) head with
              ⟨-, hinside, due, -, hpaces⟩
            have hstart : Session.Step (anyone settings P) s (s.startRead choice caller).2 :=
              .startRead choice trivial
            have hdistinct := (hstart.move hs).distinct hs
            exact .later hlate hbegins hinside fun t ht inside =>
              (hpaces.reaches hdistinct ht).awaits inside
  · exact .inl (.atOnce (.early hlate) (deliversAtOnce head (.early hlate) caller))

end

/-! ## Entries that endure -/

/-- Whatever was done, the backoff of an entry is in the series of the settings. -/
theorem Diary.inSeries {source : P.State} {a : Ambient}
    {taken again : List (Entry (Numbered P.Receipt))} {s : Watch settings P}
    (h : Diary source a taken again s) :
    ∀ entry ∈ s.accounts.live,
      ∃ n, entry.backoff = Backoff.advanced^[n] settings.backoff.start := by
  induction h with
  | begins =>
      rw [show (start settings source a).accounts.live = 0 from rfl]
      simp
  | @step taken again s s' before step ih =>
      rcases before.strides step with ⟨hstrides, hapart, -, -⟩
      refine hstrides.forall_live ih hapart (fun _ hbackoff _ => hbackoff) ?_ ?_
      · exact fun _ _ _ hbackoff _ _ => ⟨0, hbackoff⟩
      · rintro entry entry' ⟨n, hbackoff⟩ goes
        rcases goes.backoff_cases with heq | heq
        · exact ⟨n, heq.trans hbackoff⟩
        · exact ⟨n + 1, by rw [heq, hbackoff, Function.iterate_succ_apply']⟩

/-- How the entries of a session endure.

* The attempts of an entry are how often it was handed out again, up to a multiple of `2 ^ 32`.
* The next delivery has one more, and none if that is a multiple of `2 ^ 32`.
* The next delivery is to wait exactly if what is left of so many, up to a multiple of `2 ^ 32`,
  is more than happen without a delay.
* A read that takes an entry hands it out again with one more attempt, or breaks off.
* It never breaks off for settings that were loaded, as long as what is picked lies in the
  range. -/
structure Endures (again : List (Entry (Numbered P.Receipt))) (s : Watch settings P) : Prop where
  attempts : ∀ entry ∈ s.held ++ s.queued ++ s.paced,
    entry.attempts.toNat = triesOf entry.number again % 2 ^ 32
  next : ∀ entry ∈ s.held ++ s.queued ++ s.paced, (entry.attempts + 1).toNat =
    if (triesOf entry.number again + 1) % 2 ^ 32 = 0 then 0 else entry.attempts.toNat + 1
  late_iff : ∀ entry ∈ s.held ++ s.queued ++ s.paced, settings.backoffAfter < entry.attempts + 1 ↔
    settings.backoffAfter.toNat < (triesOf entry.number again + 1) % 2 ^ 32
  serves : ∀ entry rest, s.queued = entry :: rest → ∀ choice caller,
    s.HandsAgain choice caller entry ∨ s.BreaksOff choice caller entry
  loaded : ∀ text, Settings.parse text = .ok settings → ∀ entry rest, s.queued = entry :: rest →
    ∀ choice caller, choice.pick.Within → s.HandsAgain choice caller entry

/-- In any session every entry endures. -/
theorem endures {source : P.State} {a : Ambient}
    {taken again : List (Entry (Numbered P.Receipt))} {s : Watch settings P}
    (h : Diary source a taken again s) : s.Endures again := by
  have hattempts : ∀ entry ∈ s.held ++ s.queued ++ s.paced,
      entry.attempts.toNat = triesOf entry.number again % 2 ^ 32 := by
    intro entry hentry
    rw [h.counted.attempts entry (s.mem_live_iff.2 hentry), UInt32.toNat_ofNat']
  have hnext : ∀ entry ∈ s.held ++ s.queued ++ s.paced,
      (entry.attempts + 1).toNat = (triesOf entry.number again + 1) % 2 ^ 32 := by
    intro entry hentry
    rw [UInt32.toNat_add, hattempts entry hentry, UInt32.toNat_one, Nat.mod_add_mod]
  refine ⟨hattempts, ?_, ?_, fun _ _ head => handsAgain_or_breaksOff h.distinct head, ?_⟩
  · intro entry hentry
    rw [hnext entry hentry, hattempts entry hentry]
    split <;> omega
  · intro entry hentry
    rw [UInt32.lt_iff_toNat_lt, hnext entry hentry]
  · intro text hparse entry rest head choice caller hwithin
    rcases handsAgain_or_breaksOff h.distinct head choice caller with hands | breaks
    · exact hands
    · have hmem : entry ∈ s.accounts.live := s.mem_live_iff.2 (by simp [head])
      obtain ⟨n, hbackoff⟩ := h.inSeries entry hmem
      obtain ⟨wait, hnext⟩ := Backoff.exists_next_of_parse hparse hbackoff hwithin
      rw [breaks.next] at hnext
      cases hnext

/-! ## A batch that fails without end

With an interval of zero no delay takes time, and a batch can fail as often as it is read. -/

/-- A read that begins leaves what comes after the first entry. -/
theorem queued_startRead {s : Watch settings P} {entry : Entry (Numbered P.Receipt)}
    {rest : List (Entry (Numbered P.Receipt))} (head : s.queued = entry :: rest) (choice : Choice)
    (caller : Scope) : queued (s.startRead choice caller).2 = rest := by
  rcases hread : s.startRead choice caller with ⟨reply, s'⟩
  rcases turn_startRead hread with ⟨progress, _, _, a, layer, hturn, -, hlayer, -⟩
  rw [queued, hlayer]
  cases hturn with
  | arms empty => exact absurd empty (by simp [show s.layer.backlog.entries = _ from head])
  | redelivers head' | breaks head' | paces head' =>
      obtain ⟨-, rfl⟩ := List.cons.inj (head.symm.trans head')
      rfl
  | asks asks | receives asks | fails asks | dies asks => cases asks
  | ends atEnd | holds atEnd =>
      cases atEnd with
      | answered asks => cases asks

/-- An entry whose next delay takes no time can fail again at once, and is then last in line with
one more attempt. -/
theorem exists_failed_again {s : Watch settings P} (hs : s.Distinct)
    {entry : Entry (Numbered P.Receipt)} {rest : List (Entry (Numbered P.Receipt))}
    (head : s.queued = entry :: rest) {choice : Choice} {delay : Duration} {backoff : Backoff}
    (next : entry.backoff.next choice.pick = .ok (delay, backoff)) (zero : delay.isZero = true)
    (caller : Scope) (failure : Failure) :
    ∃ (s' : Watch settings P) (entry' : Entry (Numbered P.Receipt)),
      Session.Reaches (anyone settings P) s s' ∧ queued s' = rest ++ [entry'] ∧
      entry'.attempts = entry.attempts + 1 ∧
      (entry'.backoff = entry.backoff ∨ entry'.backoff = backoff) := by
  obtain ⟨again, hattempts, hbackoff, batch, -, hheld⟩ :
      ∃ again : Entry (Numbered P.Receipt), again.attempts = entry.attempts + 1 ∧
        (again.backoff = entry.backoff ∨ again.backoff = backoff) ∧
          s.DeliversAtOnce choice caller again := by
    by_cases hlate : settings.backoffAfter < entry.attempts + 1
    · exact ⟨{ entry with attempts := entry.attempts + 1, backoff }, rfl, .inr rfl,
        deliversAtOnce head (.noDelay hlate next zero) caller⟩
    · exact ⟨{ entry with attempts := entry.attempts + 1 }, rfl, .inl rfl,
        deliversAtOnce head (.early hlate) caller⟩
  have hstep : Session.Step (anyone settings P) s (s.startRead choice caller).2 :=
    .startRead choice trivial
  have hdistinct := (hstep.move hs).distinct hs
  obtain ⟨delivery, hmem, rfl⟩ : ∃ delivery ∈ (s.startRead choice caller).2.deliveries,
      heldBy delivery = again := by
    apply List.mem_map.1
    change again ∈ held (s.startRead choice caller).2
    rw [hheld]
    exact List.mem_append_right _ (List.mem_singleton_self _)
  rcases Session.exists_report hdistinct hmem (.failed failure) with ⟨_, s', hreport, -⟩
  rcases queued_report hreport with ⟨delivery', hmem', hid, entry', hqueued, -, hcount, hplace⟩
  -- One delivery has this number, so it is the one that has just been made.
  obtain rfl : delivery' = delivery := by
    have hfind := Session.find_of_mem hdistinct hmem
    rw [← hid, Session.find_of_mem hdistinct hmem'] at hfind
    exact Option.some.inj hfind
  refine ⟨s', entry', .step (.step .start hstep) (.report hreport), ?_, hcount.trans hattempts, ?_⟩
  · rw [hqueued, queued_startRead head]
  · rw [hplace]
    exact hbackoff

namespace Tour

/-- The first two redeliveries do not wait, and all others wait for no time. -/
def relentless : Settings where
  backoff := { Policy.default with initial := .zero }
  backoffAfter := 2
  drainPoll := .ofMillis 10

/-- A text that gives them. -/
def relentlessText : String := "\x7b \"backoff\": \x7b \"initial_interval_ms\": 0 \x7d \x7d"

theorem parse_relentlessText : Settings.parse relentlessText = .ok relentless := by
  decide +kernel

theorem within_choice : choice.pick.Within := fun _ _ h => ⟨(Binary64.le_self_of_le h).1, h⟩

/-- Somebody has a scope, and reads. -/
def relentlessRead : Watch relentless Memory.port :=
  let s : Watch relentless Memory.port := start relentless (.finite [batch]) (.start .epoch)
  ((s.scope false).2.startRead choice caller).2

/-- The batch is delivered, and fails. -/
def relentlessFailed : Watch relentless Memory.port :=
  ((relentlessRead.goOn choice 0).goOn choice 0).told 0 (.failed (.whole "full"))

theorem reached_relentlessFailed : Session.Reaches (anyone relentless Memory.port)
    (start relentless (.finite [batch]) (.start .epoch)) relentlessFailed := by
  have hread : Session.Reaches (anyone relentless Memory.port)
      (start relentless (.finite [batch]) (.start .epoch)) relentlessRead :=
    .step (.step .start (.scope _ false)) (.startRead choice trivial)
  exact ((hread.goOn choice 0).goOn choice 0).told 0 _

/-- Such a series stays where it begins. -/
theorem next_relentless (pick : Pick) :
    relentless.backoff.start.next pick = .ok (.zero, relentless.backoff.start) := by
  have hgrown : relentless.backoff.start.grown = .ok relentless.backoff.start.current := by
    decide +kernel
  have hadvanced : relentless.backoff.start.advanced = relentless.backoff.start :=
    Backoff.advanced_of_grown hgrown
  rw [Backoff.next_of_unjittered (by decide +kernel), hadvanced]
  decide +kernel

end Tour

/-- The batch has failed once more than so many times, and is alone in line. -/
structure Relentless (n : Nat) (s : Watch Tour.relentless Memory.port)
    (entry : Entry (Numbered Memory.port.Receipt)) : Prop where
  reached : Session.Reaches (anyone Tour.relentless Memory.port)
    (start Tour.relentless (.finite [Tour.batch]) (.start .epoch)) s
  queued : s.queued = [entry]
  attempts : entry.attempts = .ofNat n
  backoff : entry.backoff = Tour.relentless.backoff.start

namespace Relentless

variable {n : Nat} {s : Watch Tour.relentless Memory.port}
  {entry : Entry (Numbered Memory.port.Receipt)}

theorem failed : ∃ entry, Relentless 0 Tour.relentlessFailed entry := by
  rcases List.length_eq_one_iff.1 (show Tour.relentlessFailed.queued.length = 1 by
    decide +kernel) with ⟨entry, hentry⟩
  have hplace : Tour.relentlessFailed.queued.map (fun entry => (entry.attempts, entry.backoff)) =
      [(0, Tour.relentless.backoff.start)] := by
    decide +kernel
  rw [hentry] at hplace
  obtain ⟨hattempts, hbackoff⟩ := Prod.mk.inj (List.singleton_inj.1 hplace)
  exact ⟨entry, Tour.reached_relentlessFailed, hentry, hattempts, hbackoff⟩

/-- It can fail again. -/
theorem again (h : Relentless n s entry) : ∃ s' entry',
    Session.Reaches (anyone Tour.relentless Memory.port) s s' ∧ Relentless (n + 1) s' entry' := by
  have hnext : entry.backoff.next Tour.choice.pick = .ok (.zero, entry.backoff) := by
    rw [h.backoff]
    exact Tour.next_relentless _
  rcases exists_failed_again (h.reached.distinct (Session.distinct_new _ _)) h.queued hnext rfl
    Tour.caller (.whole "full") with ⟨s', entry', hreaches, hqueued, hattempts, hbackoff⟩
  refine ⟨s', entry', hreaches, h.reached.trans hreaches, hqueued, ?_, ?_⟩
  · rw [hattempts, h.attempts, UInt32.ofNat_add]
    rfl
  · exact (or_self_iff.1 hbackoff).trans h.backoff

/-- It can fail any number of times. -/
theorem exists_failed (n : Nat) : ∃ s entry, Relentless n s entry := by
  induction n with
  | zero => exact ⟨_, failed⟩
  | succ n ih =>
      rcases ih with ⟨s, entry, h⟩
      rcases h.again with ⟨s', entry', -, h'⟩
      exact ⟨s', entry', h'⟩

theorem maxAttempts_eq (h : Relentless n s entry) :
    s.layer.stats.maxAttempts.toNat = n % 2 ^ 32 := by
  change s.layer.backlog.maxAttempts.toNat = _
  rw [Backlog.toNat_maxAttempts, show s.layer.backlog.entries = _ from h.queued, List.map_singleton,
    h.attempts, UInt32.toNat_ofNat']
  rfl

end Relentless

/-- The batch that has failed once is handed out again. -/
theorem endures_relentless : ∃ taken again,
    Diary (Memory.finite [Tour.batch]) (.start .epoch) taken again Tour.relentlessFailed ∧
      Settings.parse Tour.relentlessText = .ok Tour.relentless ∧ Tour.choice.pick.Within ∧
      Tour.relentlessFailed.Endures again ∧ ∃ entry, Tour.relentlessFailed.queued = [entry] ∧
        ∀ caller, Tour.relentlessFailed.HandsAgain Tour.choice caller entry := by
  rcases exists_diary Tour.reached_relentlessFailed with ⟨taken, again, h⟩
  rcases List.length_eq_one_iff.1 (show Tour.relentlessFailed.queued.length = 1 by
    decide +kernel) with ⟨entry, hentry⟩
  have hendures := endures h
  exact ⟨taken, again, h, Tour.parse_relentlessText, Tour.within_choice, hendures, entry, hentry,
    fun caller => hendures.loaded _ Tour.parse_relentlessText entry [] hentry Tour.choice caller
      Tour.within_choice⟩

/-- A batch that has failed `2 ^ 32` times is handed out with no attempts, and no longer late.
A batch that has failed once, and for which what is drawn is no delay, is not handed out. -/
theorem starts_over :
    (∃ (s s' : Watch Tour.relentless Memory.port) (entry : Entry (Numbered Memory.port.Receipt)),
      Session.Reaches (anyone Tour.relentless Memory.port)
        (start Tour.relentless (.finite [Tour.batch]) (.start .epoch)) s ∧
      s.queued = [entry] ∧ entry.attempts.toNat = 2 ^ 32 - 1 ∧
      Tour.relentless.backoffAfter < entry.attempts ∧
      ¬Tour.relentless.backoffAfter < entry.attempts + 1 ∧
      (∀ choice caller, s.DeliversAtOnce choice caller { entry with attempts := 0 }) ∧
      Session.Reaches (anyone Tour.relentless Memory.port) s s' ∧
      s.layer.stats.maxAttempts.toNat = 2 ^ 32 - 1 ∧ s'.queued ≠ [] ∧
      s'.layer.stats.maxAttempts.toNat = 0) ∧
    (Session.Reaches (anyone Tour.vast Memory.port)
        (start Tour.vast (.finite [Tour.batch]) (.start .epoch)) Tour.vastFailed ∧
      ¬Tour.vastFailed.ambient.scopes.IsCancelled Tour.caller ∧
      ∃ entry, Tour.vastFailed.queued = [entry] ∧
        Tour.vastFailed.BreaksOff Tour.choice Tour.caller entry) := by
  constructor
  · rcases Relentless.exists_failed (2 ^ 32 - 1) with ⟨s, entry, h⟩
    rcases h.again with ⟨s', entry', hreaches, h'⟩
    have hearly : ¬Tour.relentless.backoffAfter < entry.attempts + 1 := by
      rw [h.attempts]
      decide
    have hnone : entry.attempts + 1 = 0 := by
      rw [h.attempts]
      decide
    refine ⟨s, s', entry, h.reached, h.queued, ?_, ?_, hearly, ?_, hreaches, h.maxAttempts_eq, ?_,
      h'.maxAttempts_eq⟩
    · rw [h.attempts]
      decide
    · rw [h.attempts]
      decide
    · intro choice caller
      have hatOnce : Layer.AtOnce (P := Memory.port.recorded) Tour.relentless choice entry
          entry.backoff := .early hearly
      have hdelivers := deliversAtOnce h.queued hatOnce caller
      rwa [hnone] at hdelivers
    · simp [h'.queued]
  · refine ⟨anyone_of_alone Tour.reached_vastFailed, by decide +kernel, ?_⟩
    rcases List.length_eq_one_iff.1 (show Tour.vastFailed.queued.length = 1 by
      decide +kernel) with ⟨entry, hentry⟩
    have hplace : Tour.vastFailed.queued.map (fun entry =>
        (entry.attempts, entry.backoff.next Tour.choice.pick)) = [(0, .error .tooLong)] := by
      decide +kernel
    rw [hentry] at hplace
    obtain ⟨hattempts, hnext⟩ := Prod.mk.inj (List.singleton_inj.1 hplace)
    have hlate : Tour.vast.backoffAfter < entry.attempts + 1 := by
      rw [hattempts]
      decide
    exact ⟨entry, hentry, hlate, hnext, reply_of_breaks hentry hlate hnext⟩

end Watch

end Redelivery
