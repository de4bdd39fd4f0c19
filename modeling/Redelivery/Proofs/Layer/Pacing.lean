import Redelivery.Proofs.Layer.Abandonment
import Redelivery.Proofs.Layer.Conservation

/-!
# The pace of redeliveries

How soon an entry is delivered again is its own affair.  It counts how often it was handed
out from the backlog, and it knows its place in its series of delays; the two advance at
different moments, the one as the entry is handed out and the other as a read takes it.
What happens to other entries in between changes neither, and a failure that leaves only
some of the parts begins neither anew.

Main definitions:

* `Entry.Goes`, `Strides`: what a step does to one entry, and to all that are on their way.
* `triesOf`, `delaysOf`: how often a batch was handed out again, and how many delays it took.
* `Watch.Diary`: a session with all that reads have taken and all that was handed out again.
* `Watch.AtOwnPace`: attempts and delays are those of the entry's own series.

Main results:

* Theorem `Watch.strides_move`: every move is a stride.
* Theorem `Strides.forall_live`: what a stride keeps is told entry by entry.
* Theorem `OnPace.strides`: a stride keeps every entry at its place.
* Theorem `Watch.paced_by_own_tries`: all entries go at their own pace, in any session.
-/

namespace Redelivery

/-! ## One entry -/

namespace Entry

variable {ρ : Type} {settings : Settings}

/-- The next delivery of the entry comes after a delay. -/
def Late (settings : Settings) (entry : Entry ρ) : Prop :=
  settings.backoffAfter.toNat < entry.attempts.toNat + 1

instance (settings : Settings) (entry : Entry ρ) : Decidable (entry.Late settings) :=
  inferInstanceAs (Decidable (_ < _))

theorem attempts_succ {entry : Entry ρ} (room : entry.attempts.toNat + 1 < 2 ^ 32) :
    (entry.attempts + 1).toNat = entry.attempts.toNat + 1 := by
  rw [UInt32.toNat_add, UInt32.toNat_one]
  exact Nat.mod_eq_of_lt room

/-- As long as attempts can be counted, the comparison is one of numbers. -/
theorem late_iff {entry : Entry ρ} (room : entry.attempts.toNat + 1 < 2 ^ 32) :
    entry.Late settings ↔ settings.backoffAfter < entry.attempts + 1 := by
  rw [UInt32.lt_iff_toNat_lt, attempts_succ room, Late]

/-- What a step can do to an entry, with what is taken by a read that begins, and what is
handed out again. -/
inductive Goes (settings : Settings) (entry : Entry ρ) :
    List (Entry ρ) → List (Entry ρ) → Entry ρ → Prop
  /-- A delivery of it fails, and leaves some of its parts. -/
  | fails (batch : Batch) (time : Timestamp) :
      Goes settings entry [] [] { entry with batch, lastFailed := some time }
  /-- It is taken and handed out. -/
  | early {again : Entry ρ} (h : ¬settings.backoffAfter < entry.attempts + 1)
      (eq : again = { entry with attempts := entry.attempts + 1 }) :
      Goes settings entry [entry] [again] again
  /-- It is taken and handed out, because its delay is none. -/
  | atOnce {again : Entry ρ} (h : settings.backoffAfter < entry.attempts + 1)
      (eq : again = { entry with
        attempts := entry.attempts + 1, backoff := entry.backoff.advanced }) :
      Goes settings entry [entry] [again] again
  /-- It is taken, and its delay begins. -/
  | pauses (h : settings.backoffAfter < entry.attempts + 1) :
      Goes settings entry [entry] [] { entry with backoff := entry.backoff.advanced }
  /-- Its delay is over, and it is handed out. -/
  | resumes {again : Entry ρ} (eq : again = { entry with attempts := entry.attempts + 1 }) :
      Goes settings entry [] [again] again

end Entry

/-! ## All entries -/

section

variable {ρ : Type} {settings : Settings} {taken again more more' : List (Entry (Numbered ρ))}
  {live live' : Multiset (Entry (Numbered ρ))}

/-- How often the batch with a number was handed out again. -/
def triesOf (number : Nat) (again : List (Entry (Numbered ρ))) : Nat :=
  again.countP fun entry => entry.number = number

/-- How many delays of its series the batch with a number took. -/
def delaysOf (settings : Settings) (number : Nat) (taken : List (Entry (Numbered ρ))) : Nat :=
  taken.countP fun entry => entry.number = number ∧ entry.Late settings

theorem triesOf_append (number : Nat) :
    triesOf number (again ++ more) = triesOf number again + triesOf number more :=
  List.countP_append

theorem delaysOf_append (number : Nat) :
    delaysOf settings number (taken ++ more) =
      delaysOf settings number taken + delaysOf settings number more :=
  List.countP_append

theorem triesOf_of_ne {number : Nat} (h : ∀ entry ∈ again, entry.number ≠ number) :
    triesOf number again = 0 := by
  rw [triesOf, List.countP_eq_zero]
  intro entry hentry
  simpa using h entry hentry

theorem delaysOf_of_ne {number : Nat} (h : ∀ entry ∈ taken, entry.number ≠ number) :
    delaysOf settings number taken = 0 := by
  rw [delaysOf, List.countP_eq_zero]
  intro entry hentry
  simp [h entry hentry]

/-- Whatever a step does to an entry, its receipt stays. -/
theorem Entry.Goes.number_eq {entry entry' : Entry (Numbered ρ)}
    (goes : entry.Goes settings taken again entry') : entry'.number = entry.number := by
  have hreceipt : entry'.receipt = entry.receipt := by
    cases goes with
    | fails | pauses => rfl
    | early h eq | atOnce h eq | resumes eq => rw [eq]
  exact congrArg Numbered.number hreceipt

/-- What is taken and handed out is the entry itself. -/
theorem Entry.Goes.own {entry entry' : Entry (Numbered ρ)}
    (goes : entry.Goes settings taken again entry') :
    ∀ other ∈ taken ++ again, other.number = entry.number := by
  have hnumber := goes.number_eq
  cases goes with
  | fails => simp
  | early | atOnce | resumes => simp [hnumber]
  | pauses => simp

/-- Attempts advance as an entry is handed out, and its backoff as it is taken late. -/
theorem Entry.Goes.advances {entry entry' : Entry (Numbered ρ)}
    (goes : entry.Goes settings taken again entry')
    (room : entry.attempts.toNat + 1 < 2 ^ 32) :
    entry'.attempts.toNat = entry.attempts.toNat + triesOf entry.number again ∧
      entry'.backoff =
        Backoff.advanced^[delaysOf settings entry.number taken] entry.backoff := by
  have hnumber := goes.number_eq
  cases goes with
  | fails => exact ⟨rfl, rfl⟩
  | early h eq | atOnce h eq =>
      rw [← late_iff room] at h
      simp only [triesOf, delaysOf, List.countP_singleton, hnumber, h]
      simp [eq, attempts_succ room]
  | pauses h =>
      rw [← late_iff room] at h
      simp [triesOf, delaysOf, h]
  | resumes eq =>
      simp only [triesOf, delaysOf, List.countP_singleton, hnumber]
      simp [eq, attempts_succ room]

/-- What a step does to the entries that are on their way after so many batches were
received. -/
inductive Strides (settings : Settings) (received : Nat) (live : Multiset (Entry (Numbered ρ))) :
    List (Entry (Numbered ρ)) → List (Entry (Numbered ρ)) → Multiset (Entry (Numbered ρ)) → Prop
  | stays : Strides settings received live [] [] live
  /-- A batch is received. -/
  | receives {entry : Entry (Numbered ρ)} (number : entry.number = received)
      (attempts : entry.attempts = 0) (backoff : entry.backoff = settings.backoff.start) :
      Strides settings received live [] [] (entry ::ₘ live)
  /-- A batch is settled, or its read breaks off. -/
  | leaves {entry : Entry (Numbered ρ)} {rest : Multiset (Entry (Numbered ρ))}
      {taken : List (Entry (Numbered ρ))} (among : live = entry ::ₘ rest)
      (own : ∀ other ∈ taken, other = entry) : Strides settings received live taken [] rest
  /-- An entry goes on. -/
  | goes {entry entry' : Entry (Numbered ρ)} {rest : Multiset (Entry (Numbered ρ))}
      {taken again : List (Entry (Numbered ρ))} (among : live = entry ::ₘ rest)
      (goes : entry.Goes settings taken again entry') :
      Strides settings received live taken again (entry' ::ₘ rest)

/-- What is taken and handed out again has been received. -/
theorem Strides.known {received : Nat} (strides : Strides settings received live more more' live')
    (filed : ∀ entry ∈ live, entry.number < received) :
    ∀ entry ∈ more ++ more', entry.number < received := by
  cases strides with
  | stays | receives => simp
  | @leaves gone _ _ among own =>
      intro other hother
      rw [own other (by simpa using hother)]
      exact filed gone (among ▸ Multiset.mem_cons_self _ _)
  | @goes entry _ _ _ _ among goes =>
      intro other hother
      rw [goes.own other hother]
      exact filed entry (among ▸ Multiset.mem_cons_self _ _)

/-- What is said of each entry is kept by a stride if it is true of a batch just received, is
kept as the entry goes on, and does not depend on what others do. -/
theorem Strides.forall_live {received : Nat} {Q Q' : Entry (Numbered ρ) → Prop}
    (strides : Strides settings received live more more' live') (h : ∀ entry ∈ live, Q entry)
    (apart : ∀ entry rest, live = entry ::ₘ rest → ∀ other ∈ rest, other.number ≠ entry.number)
    (others : ∀ entry, Q entry → (∀ x ∈ more ++ more', x.number ≠ entry.number) → Q' entry)
    (fresh : ∀ entry : Entry (Numbered ρ), entry.number = received → entry.attempts = 0 →
      entry.backoff = settings.backoff.start → more = [] → more' = [] → Q' entry)
    (goes : ∀ entry entry', Q entry → entry.Goes settings more more' entry' → Q' entry') :
    ∀ entry ∈ live', Q' entry := by
  cases strides with
  | stays => exact fun entry hentry => others entry (h entry hentry) (by simp)
  | @receives new number attempts backoff =>
      intro entry hentry
      rcases Multiset.mem_cons.1 hentry with rfl | hentry
      · exact fresh entry number attempts backoff rfl rfl
      · exact others entry (h entry hentry) (by simp)
  | @leaves gone _ _ among own =>
      intro entry hentry
      refine others entry (h entry (among ▸ Multiset.mem_cons_of_mem hentry)) ?_
      intro x hx
      rw [own x (by simpa using hx)]
      exact (apart gone _ among entry hentry).symm
  | @goes moved _ rest _ _ among moves =>
      intro entry hentry
      rcases Multiset.mem_cons.1 hentry with rfl | hentry
      · exact goes moved entry (h moved (among ▸ Multiset.mem_cons_self _ _)) moves
      · refine others entry (h entry (among ▸ Multiset.mem_cons_of_mem hentry)) ?_
        intro x hx
        rw [moves.own x hx]
        exact (apart moved rest among entry hentry).symm

/-- Every entry has as many attempts as it was handed out again, and its backoff is as far in
its series as it took delays. -/
structure OnPace (settings : Settings) (received : Nat) (taken again : List (Entry (Numbered ρ)))
    (live : Multiset (Entry (Numbered ρ))) : Prop where
  attempts : ∀ entry ∈ live, entry.attempts.toNat = triesOf entry.number again
  backoff : ∀ entry ∈ live,
    entry.backoff = Backoff.advanced^[delaysOf settings entry.number taken] settings.backoff.start
  known : ∀ entry ∈ taken ++ again, entry.number < received

/-- A stride keeps every entry at its place. -/
theorem OnPace.strides {received received' : Nat} (h : OnPace settings received taken again live)
    (strides : Strides settings received live more more' live')
    (apart : ∀ entry rest, live = entry ::ₘ rest → ∀ other ∈ rest, other.number ≠ entry.number)
    (filed : ∀ entry ∈ live, entry.number < received) (grows : received ≤ received')
    (few : ∀ number, triesOf number again + 1 < 2 ^ 32) :
    OnPace settings received' (taken ++ more) (again ++ more') live' := by
  have hplace : ∀ entry ∈ live', entry.attempts.toNat = triesOf entry.number (again ++ more') ∧
      entry.backoff = Backoff.advanced^[delaysOf settings entry.number (taken ++ more)]
        settings.backoff.start := by
    have hbefore : ∀ entry ∈ live, entry.attempts.toNat = triesOf entry.number again ∧
        entry.backoff = Backoff.advanced^[delaysOf settings entry.number taken]
          settings.backoff.start :=
      fun entry hentry => ⟨h.attempts entry hentry, h.backoff entry hentry⟩
    refine strides.forall_live hbefore apart ?_ ?_ ?_
    · rintro entry ⟨hattempts, hbackoff⟩ hothers
      have htaken : delaysOf settings entry.number more = 0 :=
        delaysOf_of_ne fun x hx => hothers x (List.mem_append_left _ hx)
      have hagain : triesOf entry.number more' = 0 :=
        triesOf_of_ne fun x hx => hothers x (List.mem_append_right _ hx)
      rw [triesOf_append, delaysOf_append, hagain, htaken]
      exact ⟨hattempts, hbackoff⟩
    · -- A new number is nobody's, so nothing was counted under it.
      rintro entry hnumber hattempts hbackoff rfl rfl
      have hnew : ∀ other ∈ taken ++ again, other.number ≠ entry.number :=
        fun other hother => hnumber ▸ Nat.ne_of_lt (h.known other hother)
      have htries : triesOf entry.number again = 0 :=
        triesOf_of_ne fun other hother => hnew other (List.mem_append_right _ hother)
      have hdelays : delaysOf settings entry.number taken = 0 :=
        delaysOf_of_ne fun other hother => hnew other (List.mem_append_left _ hother)
      simp [htries, hdelays, hattempts, hbackoff]
    · rintro entry entry' ⟨hattempts, hbackoff⟩ hgoes
      have hroom : entry.attempts.toNat + 1 < 2 ^ 32 := hattempts ▸ few entry.number
      rcases hgoes.advances hroom with ⟨hattempts', hbackoff'⟩
      rw [hgoes.number_eq, triesOf_append, delaysOf_append, Nat.add_comm (delaysOf ..),
        Function.iterate_add_apply, ← hbackoff, ← hattempts]
      exact ⟨hattempts', hbackoff'⟩
  refine ⟨fun entry hentry => (hplace entry hentry).1, fun entry hentry => (hplace entry hentry).2,
    ?_⟩
  intro entry hentry
  refine Nat.lt_of_lt_of_le ?_ grows
  simp only [List.mem_append] at hentry
  rcases hentry with (htaken | hmore) | (hagain | hmore)
  · exact h.known entry (List.mem_append_left _ htaken)
  · exact strides.known filed entry (List.mem_append_left _ hmore)
  · exact h.known entry (List.mem_append_right _ hagain)
  · exact strides.known filed entry (List.mem_append_right _ hmore)

end

/-! ## Turns and reports -/

/-- A failure changes neither the attempts of an entry nor its backoff. -/
theorem Held.exists_afterFailure {ρ : Type} (held : Held ρ) (failure : Failure)
    (time : Timestamp) : ∃ batch, (held.afterFailure failure).markFailed time =
      { held.entry with batch, lastFailed := some time } := by
  unfold Held.afterFailure
  cases held.group with
  | none => exact ⟨held.entry.batch, rfl⟩
  | some group => exact ⟨_, rfl⟩

/-- What was received stays so. -/
theorem Accounts.Step.length_received {ρ : Type} {x y : Accounts ρ} (h : x.Step y) :
    x.received.length ≤ y.received.length := by
  cases h with
  | receives => simp
  | stays | breaks | loses | paces | redelivers | fails | settles => exact Nat.le_refl _

namespace Layer

variable {settings : Settings} {P : Port}

/-- The entry that a turn takes from the backlog. -/
def takenIn (layer : Layer P) : (port settings P).Point → List (Entry P.Receipt)
  | .outside _ => layer.backlog.entries.head?.toList
  | .inside _ => []

theorem Asks.takenIn_eq {layer : Layer P} {point : (port settings P).Point} {scope : Scope}
    {inside : P.Point} (asks : Asks settings layer point scope inside) :
    layer.takenIn point = [] := by
  cases asks with
  | begins | goesOn => rfl

theorem AtEnd.takenIn_eq {choice : Choice} {a a' : Ambient} {layer : Layer P}
    {point : (port settings P).Point} {scope : Scope} {inner : P.State}
    (atEnd : AtEnd settings choice a layer point scope a' inner) : layer.takenIn point = [] := by
  cases atEnd with
  | flagged | looked => rfl
  | answered asks turn => exact asks.takenIn_eq

section

attribute [local simp] accounts entriesBefore entriesAfter Reading.entries Progress.issued

/-- A turn is a stride of the entries that are on their way. -/
theorem Turn.strides {choice : Choice} {a a' : Ambient} {layer layer' : Layer P.recorded}
    {point : (port settings P.recorded).Point} {progress : Going P.recorded}
    (turn : Turn settings choice a layer point progress a' layer')
    (marked : ∀ entry ∈ line point layer, entry.lastFailed.isSome)
    (elsewhere : Multiset (Entry (Numbered P.Receipt)))
    (journal journal' : Journal (Held (Numbered P.Receipt))) :
    Strides settings layer.source.issued.length
      (layer.accounts (entriesBefore point + elsewhere) journal).live (layer.takenIn point)
      (retriesOf progress) (layer'.accounts (entriesAfter progress + elsewhere) journal').live := by
  have hstays : Strides settings layer.source.issued.length
      (layer.accounts (entriesBefore point + elsewhere) journal).live [] [] _ := .stays
  cases turn with
  | @arms caller empty => simpa [takenIn, retriesOf, empty] using hstays
  | @redelivers caller entry rest backoff batch held a' head atOnce hands =>
      have hmarked : entry.lastFailed.isSome := marked entry (by simp [line, head])
      have hgoes : entry.Goes settings [entry] [held.entry] held.entry := by
        rw [hands.entry_eq]
        cases atOnce with
        | early h => exact .early h rfl
        | noDelay h next zero =>
            rw [Backoff.next_eq_ok next]
            exact .atOnce h rfl
      have hstride : Strides settings layer.source.issued.length _ _ _ _ :=
        .goes (live_of_head head elsewhere journal) hgoes
      rw [retriesOf_delivered batch (hands.entry_eq ▸ hmarked)]
      simpa [takenIn, head] using hstride
  | @breaks caller entry rest reason head late next =>
      have hstride : Strides settings layer.source.issued.length _ [entry] _ _ :=
        .leaves (live_of_head head elsewhere journal) (by simp)
      simpa [takenIn, retriesOf, head] using hstride
  | @paces caller entry rest delay backoff head late next positive =>
      have hstride : Strides settings layer.source.issued.length _ _ _ _ :=
        .goes (live_of_head head elsewhere journal) (.pauses late)
      simpa [takenIn, retriesOf, head, Backoff.next_eq_ok next] using hstride
  | @resumes caller scope entry due batch held a' passed hands =>
      have hmarked : entry.lastFailed.isSome := marked entry (by simp [line])
      have hlive : (layer.accounts (↑[entry] + elsewhere) journal).live =
          entry ::ₘ (elsewhere + layer.backlog.entries) := by
        simp
      have hgoes : entry.Goes settings [] [held.entry] held.entry := .resumes hands.entry_eq
      have hstride : Strides settings layer.source.issued.length _ _ _ _ := .goes hlive hgoes
      rw [retriesOf_delivered batch (hands.entry_eq ▸ hmarked)]
      simpa [takenIn] using hstride
  | @putsBack caller scope entry due cancelled =>
      simpa [takenIn, retriesOf, Backlog.putBack, ← Multiset.cons_coe] using hstays
  | @receives point scope inside batch batch' receipt held a' a'' inner asks turn hands =>
      rcases source_turn turn with ⟨-, -, hnumber⟩
      have hretries : retriesOf (.ended (.delivered batch' held) : Going P.recorded) = [] :=
        retriesOf_eq_nil (by simp [hands.entry_eq, Entry.fresh])
      have hstride : Strides settings layer.source.issued.length
          (layer.accounts elsewhere journal).live [] []
          (.fresh batch receipt settings.backoff ::ₘ (layer.accounts elsewhere journal).live) :=
        .receives (hnumber (batch, receipt) (by simp)) rfl rfl
      rw [asks.entriesBefore_eq, asks.takenIn_eq, hretries]
      simpa [hands.entry_eq] using hstride
  | asks asks turn | fails asks turn | dies asks turn =>
      rw [asks.entriesBefore_eq] at hstays ⊢
      rw [asks.takenIn_eq]
      simpa [retriesOf] using hstays
  | ends atEnd drained | holds atEnd pending =>
      rw [atEnd.source_eq.2.2] at hstays ⊢
      rw [atEnd.takenIn_eq]
      simpa [retriesOf] using hstays
  | interrupted cancelled => simpa [takenIn, retriesOf] using hstays

end

end Layer

namespace Watch

variable {settings : Settings} {P : Port}

/-- What waits before a turn waits for its read, for others, or in the backlog. -/
theorem mem_waiting_before {s : Watch settings P} {point : (Layer.watched settings P).Point}
    {id : Nat} {before after : List (Reader (Layer.watched settings P))}
    (readers : s.readers = before ++ point.readers id ++ after)
    (entry : Entry (Numbered P.Receipt)) :
    entry ∈ s.paced ++ s.queued ↔
      entry ∈ (before ++ after).flatMap pacedBy ∨ entry ∈ Layer.line point.plain s.layer := by
  have hpoint : (point.readers id).flatMap pacedBy = Layer.entriesBefore point.plain := by
    cases point with
    | outside caller => rfl
    | inside read => exact List.flatMap_singleton ..
  simp only [paced, queued, readers, List.flatMap_append, hpoint, List.mem_append, Layer.line]
  tauto

/-- And so it does after the turn. -/
theorem mem_waiting_after (id number delivery next : Nat)
    (before after : List (Reader (Layer.watched settings P)))
    (deliveries : List (Delivery (Layer.watched settings P)))
    (progress : Layer.Going P.recorded) (a : Ambient) (state : (Layer.watched settings P).State)
    (entry : Entry (Numbered P.Receipt)) :
    let s : Watch settings P :=
      ⟨a, state, before ++ Reader.after id (progress.numbered number delivery) ++ after,
        deliveries, next⟩
    entry ∈ s.paced ++ s.queued ↔
      entry ∈ (before ++ after).flatMap pacedBy ∨ entry ∈ Layer.lineAfter progress state.state := by
  cases progress with
  | going read =>
      simp only [paced, queued, Progress.numbered, Reader.after, List.flatMap_append,
        List.flatMap_singleton, List.mem_append, Layer.lineAfter, pacedBy]
      tauto
  | ended answer =>
      have hended : Reader.after (P := Layer.watched settings P) id
          (Progress.numbered number delivery (.ended answer)) = [] := by
        cases answer <;> rfl
      simp only [paced, queued, hended, List.append_nil, List.mem_append, Layer.lineAfter]

/-- What waits to be delivered again has failed. -/
theorem marked_move {D : Discipline (Layer.watched settings P)}
    (own : ∀ f, D.changes f → ChangesSource f) {s s' : Watch settings P} (move : s.Move D s')
    (marked : ∀ entry ∈ s.paced ++ s.queued, entry.lastFailed.isSome) :
    ∀ entry ∈ s'.paced ++ s'.queued, entry.lastFailed.isSome := by
  have hbacklog : s'.paced = s.paced → s'.layer.backlog = s.layer.backlog →
      ∀ entry ∈ s'.paced ++ s'.queued, entry.lastFailed.isSome := by
    intro hpaced hsame
    rw [hpaced, queued, hsame]
    exact marked
  cases move with
  | @turns choice point id before after progress a state enters readers turn =>
      rcases Port.recorded_turn turn with ⟨plain, hturn, rfl, -⟩
      have hafter := (Layer.turn_cases hturn).moves.marked
        fun entry hentry => marked entry ((mem_waiting_before readers entry).2 (.inr hentry))
      intro entry hentry
      rcases (mem_waiting_after ..).1 hentry with hothers | hline
      · exact marked entry ((mem_waiting_before readers entry).2 (.inl hothers))
      · exact hafter entry hline
  | @reports delivery outcome settlement before after a state deliveries settles =>
      rcases Port.recorded_settle settles with ⟨hsettles, -⟩
      cases outcome with
      | processed => exact hbacklog rfl (Layer.settle_processed hsettles).1
      | failed failure =>
          intro entry hentry
          rw [queued, (Layer.settle_failed hsettles).1, ← List.append_assoc, List.mem_append]
            at hentry
          rcases hentry with hold | hnew
          · exact marked entry hold
          · rw [List.mem_singleton.1 hnew]
            rfl
  | connects enters connects =>
      rcases Port.recorded_connect connects with ⟨hconnects, -⟩
      exact hbacklog rfl (Layer.connect_backlog hconnects)
  | closes closes =>
      rcases Port.recorded_close closes with ⟨hcloses, -⟩
      exact hbacklog rfl (Layer.close_source hcloses).1
  | changes hown =>
      rcases own _ hown with ⟨g, rfl⟩
      exact marked
  | elapses grows => exact marked

/-- The entry that is taken by a read that begins in a step. -/
def taken (s s' : Watch settings P) : List (Entry (Numbered P.Receipt)) :=
  if s'.next = s.next then [] else s.queued.head?.toList

/-- A move that begins no read, hands nothing out and leaves the entries is a stride. -/
theorem strides_of_still {s s' : Watch settings P} (next : s'.next = s.next)
    (issued : s'.journal.issued = s.journal.issued) (elsewhere : s'.elsewhere = s.elsewhere)
    (backlog : s'.layer.backlog = s.layer.backlog) :
    Strides settings s.source.issued.length s.accounts.live (s.taken s') (s.retries s')
      s'.accounts.live := by
  have hretries : s.retries s' = [] := by simp [retries, issued]
  have hlive : s'.accounts.live = s.accounts.live := by
    simp only [accounts, Layer.accounts, elsewhere, backlog]
  rw [taken, if_pos next, hretries, hlive]
  exact .stays

/-- A turn of a read is a stride. -/
theorem strides_turn {s s' : Watch settings P} {choice : Choice}
    {point : (Layer.watched settings P).Point} {id : Nat}
    {before after : List (Reader (Layer.watched settings P))}
    {progress : Progress (Layer.watched settings P).Read (Layer.watched settings P).Receipt}
    (readers : s.readers = before ++ point.readers id ++ after)
    (turn : (Layer.watched settings P).turn choice point s.ambient s.state =
      some (progress, s'.ambient, s'.state))
    (readers' : s'.readers = before ++ Reader.after id progress ++ after)
    (deliveries : s'.deliveries = s.deliveries ++ Delivery.after id progress)
    (next : s'.next = point.next s.next)
    (marked : ∀ entry ∈ s.paced ++ s.queued, entry.lastFailed.isSome) :
    Strides settings s.source.issued.length s.accounts.live (s.taken s') (s.retries s')
      s'.accounts.live := by
  rcases Port.recorded_turn turn with ⟨plain, hturn, rfl, hjournal⟩
  have hstride := (Layer.turn_cases hturn).strides
    (fun entry hentry => marked entry ((mem_waiting_before readers entry).2 (.inr hentry)))
    (s.held + ((before ++ after).flatMap pacedBy : List _)) s.journal s'.journal
  have htaken : s.taken s' = s.layer.takenIn point.plain := by
    cases point with
    | outside caller => exact if_neg (next ▸ Nat.succ_ne_self _)
    | inside read => exact if_pos next
  have hafter := elsewhere_after s id (point.number s.journal) s.journal.issued.length s'.next
    before after plain s'.ambient s'.state
  rw [← readers', ← deliveries] at hafter
  rw [htaken, retries_of_append hjournal, accounts, accounts, elsewhere_before readers, hafter]
  simpa [Layer.retriesOf] using hstride

/-- A report is a stride. -/
theorem strides_report {s s' : Watch settings P} {delivery : Delivery (Layer.watched settings P)}
    {outcome : Outcome} {settlement : Settlement}
    {before after : List (Delivery (Layer.watched settings P))}
    (deliveries : s.deliveries = before ++ delivery :: after)
    (settles : (Layer.watched settings P).settle delivery.receipt outcome s.ambient s.state =
      (settlement, s'.ambient, s'.state))
    (readers : s'.readers = s.readers) (deliveries' : s'.deliveries = before ++ after)
    (next : s'.next = s.next) :
    Strides settings s.source.issued.length s.accounts.live (s.taken s') (s.retries s')
      s'.accounts.live := by
  rcases Port.recorded_settle settles with ⟨hsettles, hjournal⟩
  have hlive : s.accounts.live = heldBy delivery ::ₘ (s'.elsewhere + s.queued) := by
    simp only [accounts, Layer.accounts, elsewhere, held, paced, queued, deliveries, deliveries',
      readers, List.map_append, List.map_cons, ← Multiset.coe_add, ← Multiset.cons_coe,
      Multiset.add_cons, Multiset.cons_add]
  have hretries : s.retries s' = [] := by
    rw [retries_of_append hjournal]
    rfl
  rw [taken, if_pos next, hretries]
  cases outcome with
  | processed =>
      have hafter : s'.accounts.live = s'.elsewhere + ↑s.queued := by
        simp only [accounts, Layer.accounts, queued, (Layer.settle_processed hsettles).1]
      rw [hafter]
      exact .leaves hlive (by simp)
  | failed failure =>
      rcases delivery.receipt.value.exists_afterFailure failure s.ambient.wall with
        ⟨batch, hfailed⟩
      have hafter : s'.accounts.live =
          (delivery.receipt.value.afterFailure failure).markFailed s.ambient.wall ::ₘ
            (s'.elsewhere + s.queued) := by
        simp only [accounts, Layer.accounts, queued, (Layer.settle_failed hsettles).1,
          coe_append_singleton, Multiset.add_cons]
      rw [hafter, hfailed]
      exact .goes hlive (.fails batch s.ambient.wall)

/-- Every move is a stride of the entries that are on their way. -/
theorem strides_move {D : Discipline (Layer.watched settings P)}
    (own : ∀ f, D.changes f → ChangesSource f) {s s' : Watch settings P} (move : s.Move D s')
    (marked : ∀ entry ∈ s.paced ++ s.queued, entry.lastFailed.isSome) :
    Strides settings s.source.issued.length s.accounts.live (s.taken s') (s.retries s')
      s'.accounts.live := by
  cases move with
  | turns enters readers turn => exact strides_turn readers turn rfl rfl rfl marked
  | reports deliveries settles => exact strides_report deliveries settles rfl rfl rfl
  | connects enters connects =>
      rcases Port.recorded_connect connects with ⟨hconnects, hjournal⟩
      refine strides_of_still rfl ?_ rfl (Layer.connect_backlog hconnects)
      simp [journal, hjournal, Exchange.issued]
  | closes closes =>
      rcases Port.recorded_close closes with ⟨hcloses, hjournal⟩
      refine strides_of_still rfl ?_ rfl (Layer.close_source hcloses).1
      simp [journal, hjournal, Exchange.issued]
  | changes hown =>
      rcases own _ hown with ⟨g, rfl⟩
      exact strides_of_still rfl rfl rfl rfl
  | elapses grows => exact strides_of_still rfl rfl rfl rfl

/-! ## Diaries -/

/-- A session of any number of readers, with all the entries that reads have taken as they
began, and all that were handed out again, from the first to the last. -/
inductive Diary (source : P.State) (a : Ambient) :
    List (Entry (Numbered P.Receipt)) → List (Entry (Numbered P.Receipt)) →
      Watch settings P → Prop
  | begins : Diary source a [] [] (start settings source a)
  | step {taken again : List (Entry (Numbered P.Receipt))} {s s' : Watch settings P} :
      Diary source a taken again s → Session.Step (anyone settings P) s s' →
        Diary source a (taken ++ s.taken s') (again ++ s.retries s') s'

namespace Diary

variable {source : P.State} {a : Ambient} {taken again : List (Entry (Numbered P.Receipt))}
  {s : Watch settings P}

/-- What is told is a session. -/
theorem reaches (h : Diary source a taken again s) :
    Session.Reaches (anyone settings P) (start settings source a) s := by
  induction h with
  | begins => exact .start
  | step _ hstep ih => exact ih.step hstep

theorem distinct (h : Diary source a taken again s) : s.Distinct :=
  h.reaches.distinct (Session.distinct_new _ _)

/-- What waits to be delivered again has failed. -/
theorem marked (h : Diary source a taken again s) :
    ∀ entry ∈ s.paced ++ s.queued, entry.lastFailed.isSome := by
  refine h.reaches.induct (motive := fun s => ∀ entry ∈ paced s ++ queued s,
    entry.lastFailed.isSome) (Session.distinct_new _ _) (by simp [paced, queued, start, Session.new,
      Layer.new, Backlog.empty]) ?_
  intro s s' hs move
  exact marked_move (fun _ hf => hf) move hs

/-- A step is a stride of the entries that are on their way, each of them for another batch that
was received. -/
theorem strides (h : Diary source a taken again s) {s' : Watch settings P}
    (step : Session.Step (anyone settings P) s s') :
    Strides settings s.source.issued.length s.accounts.live (s.taken s') (s.retries s')
        s'.accounts.live ∧
      (∀ entry rest, s.accounts.live = entry ::ₘ rest →
        ∀ other ∈ rest, other.number ≠ entry.number) ∧
      (∀ entry ∈ s.accounts.live, entry.number < s.source.issued.length) ∧
      s.source.issued.length ≤ s'.source.issued.length := by
  have hmove := step.move h.distinct
  have hconserved := (reachable_accounts (fun _ hf => hf) h.reaches).conserved
  have hfiled := filed_of_reaches (fun _ hf => hf) h.reaches
  refine ⟨strides_move (fun _ hf => hf) hmove h.marked, ?_, ?_, ?_⟩
  · exact fun _ _ live _ hother => hconserved.number_ne live hother
  · exact fun _ hentry => hconserved.live_lt_length hentry
  · exact (accounts_step (fun _ hf => hf) hmove hfiled).length_received

/-- Every entry is at its place, as long as its attempts can be counted. -/
theorem onPace (h : Diary source a taken again s)
    (few : ∀ number, triesOf number again + 1 < 2 ^ 32) :
    OnPace settings s.source.issued.length taken again s.accounts.live := by
  induction h with
  | begins =>
      rw [show (start settings source a).accounts.live = 0 from rfl]
      exact ⟨by simp, by simp, by simp⟩
  | @step taken again s s' before step ih =>
      have hfew : ∀ number, triesOf number again + 1 < 2 ^ 32 := by
        intro number
        have hmore := few number
        rw [triesOf_append] at hmore
        omega
      rcases before.strides step with ⟨hstrides, hapart, hfiled, hgrows⟩
      exact (ih hfew).strides hstrides hapart hfiled hgrows hfew

end Diary

/-- Every session can be told. -/
theorem exists_diary {source : P.State} {a : Ambient} {s : Watch settings P}
    (h : Session.Reaches (anyone settings P) (start settings source a) s) :
    ∃ taken again, Diary source a taken again s := by
  induction h with
  | start => exact ⟨_, _, .begins⟩
  | step _ hstep ih =>
      rcases ih with ⟨taken, again, ih⟩
      exact ⟨_, _, ih.step hstep⟩

/-! ## What a read does -/

/-- A read that begins delivers at once, with an entry that it has taken. -/
def DeliversAtOnce (s : Watch settings P) (choice : Choice) (caller : Scope)
    (again : Entry (Numbered P.Receipt)) : Prop :=
  ∃ batch, (s.startRead choice caller).1 = some (.delivered batch) ∧
    held (s.startRead choice caller).2 = s.held ++ [again]

/-- Until its time has come a read cannot go on, and then it hands its entry out, unless its
caller cancels. -/
structure Awaits (s : Watch settings P) (id : Nat) (caller : Scope)
    (entry : Entry (Numbered P.Receipt)) (due : Nat) : Prop where
  blocked : ¬s.ambient.scopes.IsCancelled caller → s.ambient.now < due →
    ∀ choice, s.stepRead choice id = none
  delivers : ¬s.ambient.scopes.IsCancelled caller → due ≤ s.ambient.now →
    ∀ choice, ∃ batch s', s.stepRead choice id = some (some (.delivered batch), s') ∧
      held s' = s.held ++ [{ entry with attempts := entry.attempts + 1 }]

/-- A read that begins sleeps for a delay, and not at all if that is none. -/
structure SleepsFor (s : Watch settings P) (caller : Scope) (entry : Entry (Numbered P.Receipt))
    (delay : Duration) : Prop where
  zero : delay.isZero = true → ∀ choice, s.DeliversAtOnce choice caller
    { entry with attempts := entry.attempts + 1, backoff := entry.backoff.advanced }
  begins : delay.isZero = false → ∀ choice, (s.startRead choice caller).1 = none
  sleeps : delay.isZero = false → ∀ choice t,
    Session.Reaches (anyone settings P) (s.startRead choice caller).2 t →
      (∃ reader ∈ t.readers, reader.id = s.next) →
        Awaits t s.next caller { entry with backoff := entry.backoff.advanced }
          (s.ambient.now + delay.clockMillis)

/-- A read that begins takes a turn of the layer, and holds what it hands out. -/
theorem held_startRead (s : Watch settings P) (choice : Choice) (caller : Scope) :
    ∃ (progress : Layer.Going P.recorded) (a : Ambient) (layer : Layer P.recorded),
      Layer.Turn settings choice s.ambient s.layer (.outside caller) progress a layer ∧
        (s.startRead choice caller).1 = progress.reply ∧
        held (s.startRead choice caller).2 =
          s.held ++ progress.issued.map fun (_, held) => held.entry := by
  rcases hstart : (Layer.watched settings P).start choice caller s.ambient s.state with
    ⟨progress, a, state⟩
  have hturn : (Layer.watched settings P).turn choice (.outside caller) s.ambient s.state =
      some (progress, a, state) := congrArg some hstart
  rcases Port.recorded_turn hturn with ⟨plain, hplain, rfl, -⟩
  refine ⟨plain, _, _, Layer.turn_cases hplain, ?_, ?_⟩
  · rw [Session.startRead_eq hstart]
    exact Progress.reply_numbered ..
  · rw [Session.startRead_eq hstart]
    cases plain with
    | going read => simp [held, Progress.numbered, Delivery.after, Progress.issued]
    | ended answer =>
        cases answer <;> simp [held, Progress.numbered, Delivery.after, Progress.issued, heldBy]

/-- What the first entry comes to as it is taken at once. -/
theorem deliversAtOnce_of_turn {s : Watch settings P} {choice : Choice} {caller : Scope}
    {entry : Entry (Numbered P.Receipt)} {rest : List (Entry (Numbered P.Receipt))}
    (head : s.queued = entry :: rest) {backoff : Backoff}
    (same : ∀ backoff', Layer.AtOnce (P := P.recorded) settings choice entry backoff' →
      backoff' = backoff)
    (sleepless : settings.backoffAfter < entry.attempts + 1 →
      ∃ delay, entry.backoff.next choice.pick = .ok (delay, backoff) ∧ delay.isZero = true) :
    s.DeliversAtOnce choice caller
      { entry with attempts := entry.attempts + 1, backoff } := by
  rcases s.held_startRead choice caller with ⟨progress, a, layer, hturn, hreply, hheld⟩
  cases hturn with
  | arms empty => exact absurd empty (by simp [show s.layer.backlog.entries = _ from head])
  | @redelivers _ _ _ _ batch held a' head' atOnce hands =>
      obtain ⟨rfl, rfl⟩ := List.cons.inj (head.symm.trans head')
      refine ⟨batch, hreply, ?_⟩
      rw [hheld, ← same _ atOnce, ← hands.entry_eq]
      rfl
  | breaks head' late next =>
      obtain ⟨rfl, rfl⟩ := List.cons.inj (head.symm.trans head')
      rcases sleepless late with ⟨delay, hnext, -⟩
      rw [hnext] at next
      cases next
  | paces head' late next positive =>
      obtain ⟨rfl, rfl⟩ := List.cons.inj (head.symm.trans head')
      rcases sleepless late with ⟨delay, hnext, hzero⟩
      rw [hnext] at next
      obtain ⟨rfl, -⟩ := Prod.mk.inj (Except.ok.inj next)
      rw [hzero] at positive
      cases positive
  | asks asks | receives asks | fails asks | dies asks => cases asks
  | ends atEnd | holds atEnd =>
      cases atEnd with
      | answered asks => cases asks

/-- A read that holds an entry awaits its time. -/
theorem Paces.awaits {s : Watch settings P} {id : Nat} {caller : Scope}
    {entry : Entry (Numbered P.Receipt)} {due : Nat} (h : s.Paces id caller entry due)
    (inside : ∃ reader ∈ s.readers, reader.id = id) : s.Awaits id caller entry due := by
  cases hfind : s.readers.find? (·.id = id) with
  | none =>
      rcases inside with ⟨reader, hreader, hid⟩
      exact absurd hid (by simpa using List.find?_eq_none.1 hfind reader hreader)
  | some reader =>
      have hid : reader.id = id := by simpa using List.find?_some hfind
      rcases h.holds reader (List.mem_of_find?_eq_some hfind) hid with ⟨scope, hread⟩
      constructor
      · intro running early choice
        have hwaited : choice.waited (s.ambient.scopes.IsCancelled caller)
            (due ≤ s.ambient.now) = none := by
          simp [Choice.waited, running, Nat.not_le.2 early]
        have hstep : Layer.step settings choice reader.read.value s.ambient s.layer = none := by
          rw [hread, Layer.step, hwaited]
          rfl
        simp only [Session.stepRead, hfind, hstep, Option.bind_eq_bind, Option.bind_some,
          Option.map_none, Option.bind_none]
      · intro running passed choice
        have hwaited : choice.waited (s.ambient.scopes.IsCancelled caller)
            (due ≤ s.ambient.now) = some false := by
          simp [Choice.waited, running, passed]
        rcases Layer.deliver_handsOut scope { entry with attempts := entry.attempts + 1 }
          s.ambient s.layer with ⟨batch, held, a', hdeliver, hands⟩
        have hstep : Layer.step settings choice reader.read.value s.ambient s.layer =
            some (.ended (.delivered batch held), a', s.layer) := by
          rw [hread, Layer.step, hwaited]
          exact congrArg some hdeliver
        have hends : (s.stepRead choice id).map (fun x => (x.1, Watch.held x.2)) =
            some (some (.delivered batch), s.held ++ [held.entry]) := by
          simp only [Session.stepRead, hfind, hstep, Option.bind_eq_bind, Option.bind_some,
            Option.map_some, Watch.held]
          simp [Session.conclude, Session.dropReader, heldBy, Progress.numbered]
        rcases Option.map_eq_some_iff.1 hends with ⟨⟨reply, s'⟩, hstepped, heq⟩
        rcases Prod.mk.inj heq with ⟨rfl, hheld⟩
        exact ⟨batch, s', hstepped, hheld.trans (by rw [hands.entry_eq])⟩

/-- Without jitter a read sleeps for the interval of the first entry. -/
theorem sleepsFor_of_head {s : Watch settings P} (hs : s.Distinct)
    {entry : Entry (Numbered P.Receipt)} {rest : List (Entry (Numbered P.Receipt))}
    (head : s.queued = entry :: rest) (late : settings.backoffAfter < entry.attempts + 1)
    (unjittered : Backoff.jitter? entry.backoff.policy.randomization = none) (caller : Scope) :
    s.SleepsFor caller entry entry.backoff.current := by
  refine ⟨?_, ?_, ?_⟩
  · intro zero choice
    refine deliversAtOnce_of_turn head ?_ ?_
    · intro backoff atOnce
      cases atOnce with
      | early h => exact absurd late h
      | noDelay _ next _ => exact Backoff.next_eq_ok next
    · exact fun _ => ⟨_, Backoff.next_of_unjittered unjittered choice.pick, zero⟩
  · intro positive choice
    cases waitsFor_of_head head late unjittered choice caller with
    | atOnce zero => simp [positive] at zero
    | pauses _ begins => exact begins
  · intro positive choice t reaches inside
    have hstart : Session.Step (anyone settings P) s (s.startRead choice caller).2 :=
      .startRead choice trivial
    cases waitsFor_of_head head late unjittered choice caller with
    | atOnce zero => simp [positive] at zero
    | @pauses number scope paced _ begins readers =>
        rcases paces_startRead hs (Prod.ext begins rfl) head with ⟨-, -, due, -, hpaces⟩
        -- There is one read with this number, so the two say the same of it.
        rcases hpaces.holds _ (readers ▸ List.mem_append_right _ (List.mem_singleton_self _)) rfl
          with ⟨scope', hread⟩
        obtain ⟨-, -, -, rfl⟩ := Layer.Reading.pacing.inj hread
        exact (hpaces.reaches ((hstart.move hs).distinct hs) reaches).awaits inside

/-! ## At its own pace -/

/-- Every entry is paced by its own tries, and by nothing else.

* It has as many attempts as it was handed out from the backlog, and its backoff has advanced
  once for each late read that took it, given up or not.
* A read that takes it early sleeps for no time, and leaves its backoff.
* A read that takes it late sleeps, without jitter, for the delay that comes in a fresh series
  after as many as the entry took before.
* A failure leaves both as they are, whatever parts are left. -/
structure AtOwnPace (taken again : List (Entry (Numbered P.Receipt))) (s : Watch settings P) :
    Prop where
  attempts : ∀ entry ∈ s.held ++ s.queued ++ s.paced,
    entry.attempts.toNat = triesOf entry.number again
  backoff : ∀ entry ∈ s.held ++ s.queued ++ s.paced,
    entry.backoff =
      Backoff.advanced^[delaysOf settings entry.number taken] settings.backoff.start
  early : ∀ entry rest, s.queued = entry :: rest →
    entry.attempts.toNat + 1 ≤ settings.backoffAfter.toNat → ∀ choice caller,
      s.DeliversAtOnce choice caller { entry with attempts := entry.attempts + 1 }
  late : Backoff.jitter? settings.backoff.randomization = none → ∀ entry rest,
    s.queued = entry :: rest → settings.backoffAfter.toNat < entry.attempts.toNat + 1 →
      ∃ delay, (∀ pick, Backoff.delayAfter pick (delaysOf settings entry.number taken)
        settings.backoff.start = .ok delay) ∧ ∀ caller, s.SleepsFor caller entry delay
  narrowed : ∀ id failure settlement s', s.report id (.failed failure) = some (settlement, s') →
    ∃ delivery ∈ s.deliveries, delivery.id = id ∧ ∃ entry, queued s' = s.queued ++ [entry] ∧
      entry.number = (heldBy delivery).number ∧ entry.attempts = (heldBy delivery).attempts ∧
      entry.backoff = (heldBy delivery).backoff

/-- A failure leaves the attempts and the backoff of its entry as they are. -/
theorem queued_report {s s' : Watch settings P} {id : Nat} {failure : Failure}
    {settlement : Settlement} (h : s.report id (.failed failure) = some (settlement, s')) :
    ∃ delivery ∈ s.deliveries, delivery.id = id ∧ ∃ entry, queued s' = s.queued ++ [entry] ∧
      entry.number = (heldBy delivery).number ∧ entry.attempts = (heldBy delivery).attempts ∧
      entry.backoff = (heldBy delivery).backoff := by
  rcases Session.report_eq_some h with ⟨delivery, hmem, hid, hsettle, -, -, -⟩
  rcases Port.recorded_settle hsettle with ⟨hsettles, -⟩
  rcases delivery.receipt.value.exists_afterFailure failure s.ambient.wall with ⟨batch, hfailed⟩
  refine ⟨delivery, hmem, hid, _, (Layer.settle_failed hsettles).1, ?_⟩
  rw [hfailed]
  exact ⟨rfl, rfl, rfl⟩

/-- All entries go at their own pace, in any session in which none was handed out again more
often than can be counted. -/
theorem paced_by_own_tries {source : P.State} {a : Ambient}
    {taken again : List (Entry (Numbered P.Receipt))} {s : Watch settings P}
    (h : Diary source a taken again s)
    (few : ∀ number, triesOf number again < 2 ^ 32 - 1) : s.AtOwnPace taken again := by
  have hfew : ∀ number, triesOf number again + 1 < 2 ^ 32 := fun number => by
    have hlt := few number
    omega
  have hpace := h.onPace hfew
  have hfirst : ∀ {entry rest}, s.queued = entry :: rest → entry ∈ s.accounts.live := by
    intro entry rest head
    exact s.mem_live_iff.2 (by simp [head])
  have hroom : ∀ {entry rest}, s.queued = entry :: rest → entry.attempts.toNat + 1 < 2 ^ 32 := by
    intro entry rest head
    rw [hpace.attempts entry (hfirst head)]
    exact hfew entry.number
  refine ⟨fun entry hentry => hpace.attempts entry (s.mem_live_iff.2 hentry),
    fun entry hentry => hpace.backoff entry (s.mem_live_iff.2 hentry), ?_, ?_,
    fun _ _ _ _ => queued_report⟩
  · intro entry rest head hearly choice caller
    have hnot : ¬settings.backoffAfter < entry.attempts + 1 := by
      rw [← Entry.late_iff (hroom head)]
      exact Nat.not_lt.2 hearly
    refine deliversAtOnce_of_turn head ?_ (fun hlate => absurd hlate hnot)
    intro backoff atOnce
    cases atOnce with
    | early => rfl
    | noDelay hlate => exact absurd hlate hnot
  · intro unjittered entry rest head hlate
    have hbackoff := hpace.backoff entry (hfirst head)
    refine ⟨entry.backoff.current, ?_, ?_⟩
    · intro pick
      rw [hbackoff]
      exact Backoff.delayAfter_of_unjittered unjittered pick _
    · intro caller
      refine sleepsFor_of_head h.distinct head ((Entry.late_iff (hroom head)).1 hlate) ?_ caller
      rw [hbackoff, Backoff.policy_iterate]
      exact unjittered

/-! ## A delay that is given up, and one that is not

The batch that failed is taken by a read that is abandoned, and then by one that sleeps for the
second delay of its series; it is delivered, and fails again. -/

namespace Doubling

/-- The batch has failed again. -/
def refailed : Layered :=
  let (caller, s) := (abandon failed).scope false
  ((((s.startRead Tour.choice caller).2.advance 20).goOn Tour.choice s.next).told s.next
    (.failed (.whole "full")))

theorem reached_refailed : Session.Reaches (anyone doubling Memory.port) unused refailed := by
  have hread : Session.Reaches (anyone doubling Memory.port) unused (read failed) :=
    reached_failed.step (.startRead Tour.choice trivial)
  have habandoned : Session.Reaches (anyone doubling Memory.port) unused (abandon failed) :=
    (hread.step (.cancel _ Tour.caller)).goOn Tour.choice failed.next
  have hopened := habandoned.step (.scope _ false)
  have hagain : Session.Reaches (anyone doubling Memory.port) unused
      (((abandon failed).scope false).2.startRead Tour.choice
        ((abandon failed).scope false).1).2 :=
    hopened.step (.startRead Tour.choice trivial)
  exact ((hagain.step (.advance _ 20)).goOn Tour.choice _).told _ _

end Doubling

/-- What was handed out again was handed out. -/
theorem Diary.length_again_le {source : P.State} {a : Ambient}
    {taken again : List (Entry (Numbered P.Receipt))} {s : Watch settings P}
    (h : Diary source a taken again s) : again.length ≤ s.journal.issued.length := by
  induction h with
  | begins => exact Nat.zero_le _
  | @step taken again s s' before step ih =>
      rcases journal_move (fun _ hf => hf) (step.move before.distinct) with ⟨more, hmore, -⟩
      have hretries : (s.retries s').length ≤ more.issued.length := by
        rw [retries_of_append hmore]
        exact (List.length_filter_le ..).trans (List.length_map _).le
      rw [List.length_append, hmore, Journal.issued_append, List.length_append]
      omega

/-- After one delay that was given up and one that was not, the batch has one attempt, and
its backoff has advanced twice. -/
theorem paced_by_own_tries_twice : ∃ taken again,
    Diary (Memory.finite [Tour.batch]) (.start .epoch) taken again Doubling.refailed ∧
      (∀ number, triesOf number again < 2 ^ 32 - 1) ∧
      Doubling.refailed.queued.map (fun entry => (entry.attempts, entry.backoff.current)) =
        [(1, .ofMillis 40)] ∧
      Doubling.refailed.AtOwnPace taken again := by
  rcases exists_diary Doubling.reached_refailed with ⟨taken, again, h⟩
  have hfew : ∀ number, triesOf number again < 2 ^ 32 - 1 := by
    intro number
    have hissued : Doubling.refailed.journal.issued.length = 2 := by decide +kernel
    have hlength := h.length_again_le
    have htries : triesOf number again ≤ again.length := List.countP_le_length
    omega
  exact ⟨taken, again, h, hfew, by decide +kernel, paced_by_own_tries h hfew⟩

end Watch

end Redelivery
