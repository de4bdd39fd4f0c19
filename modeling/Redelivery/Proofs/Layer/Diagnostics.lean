import Redelivery.Proofs.Layer.Pacing
import Redelivery.Proofs.Backlog

/-!
# Truthful diagnostics

A look at a layer shows how much waits, how often it was tried, and since when it fails.  What
it shows is computed from the backlog alone, entry by entry.  That the earliest failure is
that of the entry which is served next, and that no more can wait than is pending, holds
because of the way entries come into the backlog: failures are stamped as they are appended,
and a read that gives up its pause returns the entry that it took from the front.

The first needs a clock that is never set back, and one reader at a time.

Main definitions:

* `Counted`: attempts are those that were made, as machine numbers.
* `FailedInTurn`: entries failed one after the other.
* `Watch.Annals`: a session with one reader in which the clock is never set back.
* `Watch.InTime`: failures in line happened one after the other.
* `Watch.Truthful`: what a look at the layer shows.

Main results:

* Theorem `Watch.Diary.counted`: attempts are counted in any session, and wrap around.
* Theorem `Layer.Moves.failedInTurn`: a turn of a read keeps the order of failures.
* Theorem `Watch.InTime.move`: whatever is done with one reader keeps it.
* Theorem `Watch.truthful_stats`: a look at the layer is truthful.
-/

namespace Redelivery

/-! ## Attempts -/

section

variable {ρ : Type} {settings : Settings} {again more more' : List (Entry (Numbered ρ))}
  {live live' : Multiset (Entry (Numbered ρ))}

/-- An entry that goes on has one more attempt for each time that it is handed out. -/
theorem Entry.Goes.attempts_eq {entry entry' : Entry (Numbered ρ)}
    (goes : entry.Goes settings more more' entry') :
    entry'.attempts = entry.attempts + .ofNat (triesOf entry.number more') := by
  have hnumber := goes.number_eq
  cases goes with
  | fails | pauses => exact (UInt32.add_zero _).symm
  | early h eq | atOnce h eq | resumes eq =>
      simp only [triesOf, List.countP_singleton, hnumber]
      simp [eq]

/-- Every entry has as many attempts as it was handed out again, as far as a machine number
can tell. -/
structure Counted (received : Nat) (again : List (Entry (Numbered ρ)))
    (live : Multiset (Entry (Numbered ρ))) : Prop where
  attempts : ∀ entry ∈ live, entry.attempts = .ofNat (triesOf entry.number again)
  known : ∀ entry ∈ again, entry.number < received

/-- A stride counts what is handed out. -/
theorem Counted.strides {received received' : Nat} (h : Counted received again live)
    (strides : Strides settings received live more more' live')
    (apart : ∀ entry rest, live = entry ::ₘ rest → ∀ other ∈ rest, other.number ≠ entry.number)
    (filed : ∀ entry ∈ live, entry.number < received) (grows : received ≤ received') :
    Counted received' (again ++ more') live' := by
  constructor
  · refine strides.forall_live h.attempts apart ?_ ?_ ?_
    · intro entry hattempts hothers
      have hnone : triesOf entry.number more' = 0 :=
        triesOf_of_ne fun x hx => hothers x (List.mem_append_right _ hx)
      rw [triesOf_append, hnone, hattempts, Nat.add_zero]
    · rintro entry hnumber hattempts - - rfl
      have hnone : triesOf entry.number again = 0 :=
        triesOf_of_ne fun other hother => hnumber ▸ Nat.ne_of_lt (h.known other hother)
      rw [hattempts, List.append_nil, hnone]
      rfl
    · intro entry entry' hattempts hgoes
      rw [hgoes.attempts_eq, hgoes.number_eq, triesOf_append, hattempts, UInt32.ofNat_add]
  · intro entry hentry
    refine Nat.lt_of_lt_of_le ?_ grows
    rcases List.mem_append.1 hentry with hold | hnew
    · exact h.known entry hold
    · exact strides.known filed entry (List.mem_append_right _ hnew)

end

namespace Watch

variable {settings : Settings} {P : Port}

/-- In any session attempts are counted. -/
theorem Diary.counted {source : P.State} {a : Ambient}
    {taken again : List (Entry (Numbered P.Receipt))} {s : Watch settings P}
    (h : Diary source a taken again s) :
    Counted s.source.issued.length again s.accounts.live := by
  induction h with
  | begins =>
      rw [show (start settings source a).accounts.live = 0 from rfl]
      exact ⟨by simp, by simp⟩
  | @step taken again s s' before step ih =>
      rcases before.strides step with ⟨hstrides, hapart, hfiled, hgrows⟩
      exact ih.strides hstrides hapart hfiled hgrows

end Watch

/-! ## The times of failures -/

/-- The entries failed one after the other, and none of them after a point in time. -/
def FailedInTurn {ρ : Type} (entries : List (Entry ρ)) (latest : Timestamp) : Prop :=
  ∃ times : List Timestamp, entries.map Entry.lastFailed = times.map some ∧
    times.Pairwise (· ≤ ·) ∧ ∀ time ∈ times, time ≤ latest

namespace FailedInTurn

variable {ρ : Type} {entries : List (Entry ρ)} {latest : Timestamp}

theorem nil (latest : Timestamp) : FailedInTurn ([] : List (Entry ρ)) latest :=
  ⟨[], rfl, .nil, by simp⟩

/-- Later on, they failed before that. -/
theorem mono (h : FailedInTurn entries latest) {later : Timestamp} (le : latest ≤ later) :
    FailedInTurn entries later := by
  rcases h with ⟨times, heq, hsorted, hlatest⟩
  exact ⟨times, heq, hsorted, fun time htime => (hlatest time htime).trans le⟩

/-- Only the times matter. -/
theorem congr (h : FailedInTurn entries latest) {entries' : List (Entry ρ)}
    (same : entries'.map Entry.lastFailed = entries.map Entry.lastFailed) :
    FailedInTurn entries' latest := by
  rcases h with ⟨times, heq, hsorted, hlatest⟩
  exact ⟨times, same.trans heq, hsorted, hlatest⟩

/-- Without the first, the others failed one after the other. -/
theorem tail {entry : Entry ρ} (h : FailedInTurn (entry :: entries) latest) :
    FailedInTurn entries latest := by
  rcases h with ⟨times, heq, hsorted, hlatest⟩
  cases times with
  | nil => cases heq
  | cons time times =>
      exact ⟨times, (List.cons.inj heq).2, hsorted.of_cons,
        fun t ht => hlatest t (List.mem_cons_of_mem _ ht)⟩

theorem of_append {before : List (Entry ρ)} (h : FailedInTurn (before ++ entries) latest) :
    FailedInTurn entries latest := by
  induction before with
  | nil => exact h
  | cons entry before ih => exact ih h.tail

/-- What fails just now goes to the end. -/
theorem append (h : FailedInTurn entries latest) {more : List (Entry ρ)}
    (now : ∀ entry ∈ more, entry.lastFailed = some latest) :
    FailedInTurn (entries ++ more) latest := by
  rcases h with ⟨times, heq, hsorted, hlatest⟩
  have hmore : more.map Entry.lastFailed = (List.replicate more.length latest).map some := by
    rw [List.map_replicate]
    exact List.map_eq_replicate_iff.2 now
  refine ⟨times ++ List.replicate more.length latest, ?_, ?_, ?_⟩
  · rw [List.map_append, List.map_append, heq, hmore]
  · refine List.pairwise_append.2 ⟨hsorted, List.pairwise_replicate.2 (.inr le_rfl), ?_⟩
    intro time htime now hnow
    rw [List.eq_of_mem_replicate hnow]
    exact hlatest time htime
  · intro time htime
    rcases List.mem_append.1 htime with hold | hnew
    · exact hlatest time hold
    · exact (List.eq_of_mem_replicate hnew).le

/-- One entry failed before another that comes after it. -/
theorem pairwise (h : FailedInTurn entries latest) :
    entries.Pairwise fun entry later =>
      ∀ t ∈ entry.lastFailed, ∀ u ∈ later.lastFailed, t ≤ u := by
  rcases h with ⟨times, heq, hsorted, -⟩
  have hmap : (entries.map Entry.lastFailed).Pairwise fun x y => ∀ t ∈ x, ∀ u ∈ y, t ≤ u := by
    rw [heq, List.pairwise_map]
    exact hsorted.imp fun hle t ht u hu => by
      rwa [← Option.some.inj ht, ← Option.some.inj hu]
  exact List.pairwise_map.1 hmap

/-- Every entry has failed, by then. -/
theorem exists_time (h : FailedInTurn entries latest) {entry : Entry ρ} (hentry : entry ∈ entries) :
    ∃ time, entry.lastFailed = some time ∧ time ≤ latest := by
  rcases h with ⟨times, heq, -, hlatest⟩
  have hmem : entry.lastFailed ∈ times.map some := heq ▸ List.mem_map_of_mem hentry
  rcases List.mem_map.1 hmem with ⟨time, htime, hfailed⟩
  exact ⟨time, hfailed.symm, hlatest time htime⟩

/-- The first of all entries has the earliest failure. -/
theorem oldestFailure_eq {backlog : Backlog ρ} (h : FailedInTurn backlog.entries latest)
    {entry : Entry ρ} {rest : List (Entry ρ)} (head : backlog.entries = entry :: rest) :
    backlog.oldestFailure = entry.lastFailed := by
  have hmem : entry ∈ backlog.entries := head ▸ List.mem_cons_self
  rcases h.exists_time hmem with ⟨time, hfailed, -⟩
  rw [hfailed, Backlog.oldestFailure_eq_some]
  refine ⟨⟨entry, hmem, hfailed⟩, ?_⟩
  have hpairwise := h.pairwise
  rw [head, List.pairwise_cons] at hpairwise
  intro later hlater t ht
  rcases List.mem_cons.1 (head ▸ hlater) with rfl | hlater
  · exact (Option.some.inj (hfailed.symm.trans ht)).le
  · exact hpairwise.1 later hlater time hfailed t ht

end FailedInTurn

/-- A turn of a read keeps those in line in the order of their failures. -/
theorem Layer.Moves.failedInTurn {P : Port} {before after : Journal P.Receipt}
    {line line' : List (Entry (Numbered P.Receipt))} {progress : Layer.Going P.recorded}
    (moves : Layer.Moves before line progress after line') {latest : Timestamp}
    (h : FailedInTurn line latest) : FailedInTurn line' latest := by
  cases moves with
  | keeps same fresh broken =>
      have htimes := congrArg (List.map Retry.lastFailed) same
      rw [List.map_map, List.map_map] at htimes
      exact h.congr htimes
  | serves | loses => exact h.tail

/-! ## A clock that is never set back -/

namespace Watch

variable {settings : Settings} {P : Port}

/-- A session with one reader in which the clock is never set back, with all that was handed
out again, from the first to the last. -/
inductive Annals (source : P.State) (a : Ambient) :
    List (Entry (Numbered P.Receipt)) → Watch settings P → Prop
  | begins : Annals source a [] (start settings source a)
  | step {again : List (Entry (Numbered P.Receipt))} {s s' : Watch settings P} :
      Annals source a again s → Session.Step (alone settings P) s s' →
        s.ambient.wall ≤ s'.ambient.wall → Annals source a (again ++ s.retries s') s'

namespace Annals

variable {source : P.State} {a : Ambient} {again : List (Entry (Numbered P.Receipt))}
  {s : Watch settings P}

theorem reaches (h : Annals source a again s) :
    Session.Reaches (alone settings P) (start settings source a) s := by
  induction h with
  | begins => exact .start
  | step _ hstep _ ih => exact ih.step hstep

/-- What is told with the time is told without it. -/
theorem exists_diary (h : Annals source a again s) : ∃ taken, Diary source a taken again s := by
  induction h with
  | begins => exact ⟨_, .begins⟩
  | @step _ s s' _ hstep _ ih =>
      rcases ih with ⟨taken, hdiary⟩
      have hchanges : ∀ f, (alone settings P).changes f → (anyone settings P).changes f :=
        fun _ hf => hf
      exact ⟨_, hdiary.step (hstep.mono (fun _ _ _ => trivial) hchanges)⟩

end Annals

/-- There is one reader at most, and those in line failed one after the other. -/
structure InTime (s : Watch settings P) : Prop where
  alone : s.readers.length ≤ 1
  line : FailedInTurn (s.paced ++ s.queued) s.ambient.wall

/-- What is pushed has failed just now. -/
theorem lastFailed_of_mem_pushes {s s' : Watch settings P} {entry : Entry (Numbered P.Receipt)}
    (h : entry ∈ s.pushes s') : entry.lastFailed = some s.ambient.wall := by
  rcases List.mem_filterMap.1 h with ⟨⟨number, outcome⟩, -, hpushed⟩
  cases outcome with
  | processed => cases hpushed
  | failed failure =>
      rcases Option.map_eq_some_iff.1 hpushed with ⟨x, -, rfl⟩
      rfl

/-- Every move keeps those in line in the order of their failures. -/
theorem InTime.move {s s' : Watch settings P} (h : s.InTime)
    (move : s.Move (Watch.alone settings P) s') (hfiled : s.Filed)
    (forward : s.ambient.wall ≤ s'.ambient.wall) : s'.InTime := by
  rcases turns_or_aside move hfiled h.alone with ⟨choice, point, id, progress, takes⟩ | haside
  · rcases Port.recorded_turn takes.turn with ⟨plain, hturn, rfl, -⟩
    have hmoves := (Layer.turn_cases hturn).moves
    constructor
    · simpa [takes.readers'] using Session.length_readers_after id _
    · rw [takes.lineAfter_eq]
      exact (hmoves.failedInTurn (takes.line_eq ▸ h.line)).mono forward
  · have hpaced : s'.paced = s.paced := by rw [paced, paced, haside.readers]
    constructor
    · exact haside.readers ▸ h.alone
    · rw [hpaced, haside.queued, ← List.append_assoc]
      exact (h.line.append fun entry => lastFailed_of_mem_pushes).mono forward

theorem Annals.inTime {source : P.State} {a : Ambient}
    {again : List (Entry (Numbered P.Receipt))} {s : Watch settings P}
    (h : Annals source a again s) : s.InTime := by
  induction h with
  | begins => exact ⟨Nat.zero_le _, .nil _⟩
  | step before hstep forward ih =>
      have hmove := hstep.move (before.reaches.distinct (Session.distinct_new _ _))
      exact ih.move hmove (filed_of_reaches (fun _ hf => hf) before.reaches) forward

/-! ## A look at the layer -/

/-- No more entries wait than are pending, in any session. -/
theorem queued_le_pending {source : P.State} {a : Ambient} {s : Watch settings P}
    (h : Session.Reaches (anyone settings P) (start settings source a) s) :
    (s.queued.length : Int) ≤ s.layer.pending := by
  have hx := (reachable_accounts (fun _ hf => hf) h).conserved
  have hcard := Multiset.card_le_card hx.numbers_le
  have hpending := hx.pending_eq
  simp only [Accounts.numbers, accounts, Layer.accounts, elsewhere, Multiset.card_add,
    Multiset.card_map, Multiset.coe_card, List.length_map, Multiset.card_range] at hcard hpending
  simp only [queued]
  omega

/-- What a look at the layer shows is true.

* Every entry that waits has failed, and they wait in the order of their failures.
* A failure is shown if and only if something waits, and it is that of the entry which the
  next read serves.
* The attempts shown are the most that were made with an entry that waits, as long as they
  can be counted, and none if nothing waits.
* What waits is pending. -/
structure Truthful (again : List (Entry (Numbered P.Receipt))) (s : Watch settings P) : Prop where
  failed : ∀ entry ∈ s.queued, ∃ time, entry.lastFailed = some time ∧ time ≤ s.ambient.wall
  inOrder : s.queued.Pairwise fun entry later =>
    ∀ t ∈ entry.lastFailed, ∀ u ∈ later.lastFailed, t ≤ u
  shown : s.layer.stats.oldestFailure.isSome ↔ 0 < s.layer.stats.queued
  oldest : ∀ entry rest, s.queued = entry :: rest →
    s.layer.stats.oldestFailure = entry.lastFailed ∧
      ∀ caller, (alone settings P).enters s caller → ∀ more reply s',
        s.Call caller more reply s' → s.Serves caller entry rest more reply s'
  attempts : (∀ entry ∈ s.queued, triesOf entry.number again < 2 ^ 32) →
    (∀ entry ∈ s.queued, triesOf entry.number again ≤ s.layer.stats.maxAttempts.toNat) ∧
      (s.queued ≠ [] → ∃ entry ∈ s.queued,
        triesOf entry.number again = s.layer.stats.maxAttempts.toNat)
  untried : s.queued = [] → s.layer.stats.maxAttempts = 0
  pending : (s.layer.stats.queued : Int) ≤ s.layer.stats.inFlight

/-- A look at the layer is truthful, in any session with one reader in which the clock is
never set back. -/
theorem truthful_stats {source : P.State} {a : Ambient}
    {again : List (Entry (Numbered P.Receipt))} {s : Watch settings P}
    (h : Annals source a again s) : s.Truthful again := by
  rcases h.exists_diary with ⟨taken, hdiary⟩
  have hline := h.inTime.line
  have hqueued : FailedInTurn s.queued s.ambient.wall := hline.of_append
  have hcounted : (∀ entry ∈ s.queued, triesOf entry.number again < 2 ^ 32) →
      ∀ entry ∈ s.queued, triesOf entry.number again = entry.attempts.toNat := by
    intro few entry hentry
    have hlive : entry ∈ s.accounts.live := s.mem_live_iff.2 (by simp [hentry])
    rw [hdiary.counted.attempts entry hlive, UInt32.toNat_ofNat_of_lt' (few entry hentry)]
  refine ⟨fun entry => hqueued.exists_time, hqueued.pairwise, ?_, ?_, ?_, ?_, ?_⟩
  · constructor
    · intro hshown
      refine List.length_pos_of_ne_nil fun empty => ?_
      have hnone : s.layer.backlog.oldestFailure = none :=
        Backlog.oldestFailure_eq_none.2 (by simp [show s.layer.backlog.entries = [] from empty])
      exact absurd hshown (by simp [Layer.stats, hnone])
    · intro hwaits
      rcases List.exists_cons_of_length_pos hwaits with ⟨entry, rest, head⟩
      rcases hqueued.exists_time (head ▸ List.mem_cons_self) with ⟨time, hfailed, -⟩
      rw [show s.layer.stats.oldestFailure = some time from
        (hqueued.oldestFailure_eq head).trans hfailed]
      rfl
  · intro entry rest head
    refine ⟨hqueued.oldestFailure_eq head, fun caller enters more reply s' call => ?_⟩
    exact (call.serves h.reaches enters head).1
  · intro few
    constructor
    · intro entry hentry
      rw [hcounted few entry hentry]
      exact Backlog.le_maxAttempts hentry
    · intro present
      rcases Backlog.exists_attempts_eq present with ⟨entry, hentry, heq⟩
      exact ⟨entry, hentry, (hcounted few entry hentry).trans heq⟩
  · exact fun empty => Backlog.maxAttempts_of_nil empty
  · exact queued_le_pending hdiary.reaches

/-! ## A backlog that a read has given up

Two batches are read.  The first fails, and while it waits for its delay the second fails; then
the first is delivered again, and fails once more.  A read takes the second, and is abandoned. -/

namespace Relay

open Doubling (doubling Layered)

/-- A source of two batches. -/
def source : Memory := .finite [Tour.batch, Tour.batch]

/-- Somebody has a scope. -/
def opened : Layered := (Session.scope (start doubling source (.start .epoch)) false).2

/-- The first batch is delivered. -/
def first : Layered := ((Doubling.read opened).goOn Tour.choice 0).goOn Tour.choice 0

/-- The second is delivered, too. -/
def second : Layered := ((Doubling.read first).goOn Tour.choice 1).goOn Tour.choice 1

/-- The first has failed, and the second fails while the first waits. -/
def behind : Layered :=
  ((Doubling.read (second.told 0 (.failed (.whole "full")))).advance 20).told 1
    (.failed (.whole "full"))

/-- The first is delivered again, and fails once more. -/
def again : Layered :=
  ((behind.goOn Tour.choice 2).advance 20).told 2 (.failed (.whole "full"))

/-- A read has taken the second, and was abandoned. -/
def abandoned : Layered := Doubling.abandon again

/-- All of it is told with one reader and a clock that goes on. -/
abbrev Told (s : Layered) : Prop := ∃ again, Annals source (.start .epoch) again s

theorem Told.step {s s' : Layered} (h : Told s)
    (step : Session.Step (alone doubling Memory.port) s s')
    (forward : s.ambient.wall ≤ s'.ambient.wall) : Told s' := by
  rcases h with ⟨again, h⟩
  exact ⟨_, h.step step forward⟩

theorem Told.read {s : Layered} (h : Told s) (none : s.readers = [])
    (own : s.OwnScope Tour.caller) (forward : s.ambient.wall ≤ (Doubling.read s).ambient.wall) :
    Told (Doubling.read s) :=
  h.step (.startRead Tour.choice ⟨none, own⟩) forward

theorem Told.goOn {s : Layered} (h : Told s) (id : Nat)
    (forward : s.ambient.wall ≤ (s.goOn Tour.choice id).ambient.wall) :
    Told (s.goOn Tour.choice id) := by
  unfold Session.goOn at forward ⊢
  cases hstep : s.stepRead Tour.choice id with
  | none => exact h
  | some result => exact h.step (.stepRead hstep) (by simpa [hstep] using forward)

theorem Told.fail {s : Layered} (h : Told s) (id : Nat)
    (forward : s.ambient.wall ≤ (s.told id (.failed (.whole "full"))).ambient.wall) :
    Told (s.told id (.failed (.whole "full"))) := by
  unfold Session.told at forward ⊢
  cases hreport : s.report id (.failed (.whole "full")) with
  | none => exact h
  | some result => exact h.step (.report hreport) (by simpa [hreport] using forward)

theorem told_second : Told second := by
  have hopened : Told opened := Told.step ⟨_, .begins⟩ (.scope _ false) (by decide)
  have hread : Told (Doubling.read opened) := hopened.read rfl (by decide) (by decide)
  have hfirst : Told first := (hread.goOn 0 (by decide)).goOn 0 (by decide)
  have hreadAgain : Told (Doubling.read first) :=
    hfirst.read (by decide) (by decide) (by decide)
  exact (hreadAgain.goOn 1 (by decide)).goOn 1 (by decide)

theorem told_again : Told again := by
  have hfailed := told_second.fail 0 (by decide)
  have hpaces := hfailed.read (by decide) (by decide) (by decide +kernel)
  have hbehind : Told behind :=
    (hpaces.step (.advance _ 20) (by decide +kernel)).fail 1 (by decide +kernel)
  have hdelivered := hbehind.goOn 2 (by decide +kernel)
  exact (hdelivered.step (.advance _ 20) (by decide +kernel)).fail 2 (by decide +kernel)

theorem told_abandoned : Told abandoned := by
  have htaken := told_again.read (by decide +kernel) (by decide +kernel) (by decide +kernel)
  have hcancelled := htaken.step (.cancel _ Tour.caller) (by decide +kernel)
  exact hcancelled.goOn again.next (by decide +kernel)

end Relay

/-- Of the two batches that wait, the second has waited longer, and the first was tried again. -/
theorem truthful_stats_relay : ∃ again,
    Annals Relay.source (.start .epoch) again Relay.abandoned ∧
      Relay.abandoned.layer.stats = ⟨2, 2, false, 1, some ⟨0, 20000000⟩⟩ ∧
      Relay.abandoned.Truthful again := by
  rcases Relay.told_abandoned with ⟨again, h⟩
  exact ⟨again, h, by decide +kernel, truthful_stats h⟩

end Watch

end Redelivery
