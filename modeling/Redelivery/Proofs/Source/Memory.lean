import Redelivery.Proofs.Port.Turn
import Redelivery.Source.Memory

/-!
# What a source in memory promises

A source in memory touches neither the clock nor the scopes, and a reader that waits in
it goes on as soon as its scope is cancelled.

Main definitions:

* `Memory.Turns`: what a turn of a read does to the batches.
* `Memory.Steps`: all that a step of a read can do, with what it found.
* `Memory.Deed`: what the owner of a source does to it.
* `Memory.Unused`: a source that nobody has used.

Main results:

* Theorem `Memory.aloof_port`, `Memory.steady_port`: nothing that is shared is touched, so
  nothing is taken back.
* Theorem `Memory.prompt_port`: no read stays blocked in a cancelled scope.
* Theorem `Memory.candid_port`: a read is given up in a cancelled scope only.
* Theorem `Memory.turns_of_turn`: what a turn of a read does to the batches.
* Theorem `Memory.steps_of_step`: all that a step of a read can do.
-/

namespace Redelivery
namespace Memory

/-- A step of a read leaves what is shared as it is. -/
theorem step_ambient {choice : Choice} {read : Reading} {a a' : Ambient} {m m' : Memory}
    {going : Going} (h : step choice read a m = some (going, a', m')) : a' = a := by
  cases read with
  | looking scope =>
      rcases Option.some.inj h with ⟨-, rfl, -⟩
      rfl
  | pausing scope =>
      rcases Option.some.inj h with ⟨-, rfl, -⟩
      rfl
  | waiting scope waiter =>
      rcases Option.map_eq_some_iff.1 h with ⟨⟨going, m⟩, -, heq⟩
      rcases heq with ⟨-, rfl, -⟩
      rfl

/-- A source in memory touches nothing that is shared. -/
theorem aloof_port : port.Aloof where
  turn {choice point a s progress a' s'} h := by
    cases point with
    | outside caller =>
        rcases Option.some.inj h with ⟨-, rfl, -⟩
        rfl
    | inside read => exact step_ambient h
  connect caller a m := by
    simp only [port, connect]
    split
    · rfl
    · split <;> rfl
  close caller a m := rfl
  settle receipt outcome a m := rfl

/-- A source in memory takes nothing back. -/
theorem steady_port : port.Steady := aloof_port.steady

/-- The scope of a read. -/
def Reading.scope : Reading → Scope
  | .looking scope => scope
  | .pausing scope => scope
  | .waiting scope _ => scope

theorem scope_of_look {scope : Scope} {m : Memory} {read : Reading}
    (h : (look scope m).1 = .going read) : read.scope = scope := by
  unfold look at h
  split at h
  · cases h
  · split at h
    · cases h
    · split at h <;> cases h
      rfl

theorem scope_of_pause {choice : Choice} {scope : Scope} {cancelled : Bool} {m : Memory}
    {read : Reading} (h : (pause choice scope cancelled m).1 = .going read) :
    read.scope = scope := by
  unfold pause at h
  split at h
  · cases h
    rfl
  · split at h <;> cases h
    rfl

theorem scope_of_resume {choice : Choice} {scope : Scope} {waiter : Nat} {cancelled : Bool}
    {m m' : Memory} {read : Reading}
    (h : resume choice scope waiter cancelled m = some (.going read, m')) : read.scope = scope := by
  simp only [resume] at h
  split at h
  · cases h
    rfl
  · split at h <;> cases h

/-- A read that goes on does so in its own scope. -/
theorem scope_of_step {choice : Choice} {read read' : Reading} {a a' : Ambient} {m m' : Memory}
    (h : step choice read a m = some (.going read', a', m')) : read'.scope = read.scope := by
  cases read with
  | looking scope => exact scope_of_look (congrArg Prod.fst (Option.some.inj h))
  | pausing scope => exact scope_of_pause (congrArg Prod.fst (Option.some.inj h))
  | waiting scope waiter =>
      rcases Option.map_eq_some_iff.1 h with ⟨⟨going, rest⟩, hresume, heq⟩
      obtain rfl : going = .going read' := congrArg Prod.fst heq
      exact scope_of_resume hresume

/-- A read goes on in the scope in which it began. -/
theorem scope_of_runsIn {scope : Scope} {read : port.Read} (h : port.RunsIn scope read) :
    Reading.scope read = scope := by
  induction h with
  | start hstart =>
      rcases hstart with ⟨rfl, -, -⟩
      rfl
  | step _ hstep ih => exact (scope_of_step hstep).trans ih

/-- No read of a source in memory stays blocked once its scope is cancelled. -/
theorem prompt_port : port.Prompt := by
  intro scope read hread a m hcancelled
  obtain rfl := scope_of_runsIn hread
  refine ⟨⟨true, fun x _ => x⟩, ?_⟩
  cases read with
  | looking scope => rfl
  | pausing scope => rfl
  | waiting scope waiter =>
      have hcancelled : a.scopes.IsCancelled scope := hcancelled
      simp [port, step, resume, hcancelled]

/-- A step of a read fails because the source has ended, or because the scope is cancelled. -/
theorem failed_of_step {choice : Choice} {read : Reading} {a a' : Ambient} {m m' : Memory}
    {error : ReadError} (h : step choice read a m = some (.ended (.failed error), a', m')) :
    error = .closed ∨ error = .cancelled ∧ a.scopes.IsCancelled read.scope := by
  cases read with
  | looking scope =>
      have hlook : (look scope m).1 = .ended (.failed error) :=
        congrArg Prod.fst (Option.some.inj h)
      unfold look at hlook
      split at hlook
      · cases hlook
        exact .inl rfl
      · split at hlook
        · cases hlook
        · split at hlook <;> cases hlook
          exact .inl rfl
  | pausing scope =>
      have hpause : (pause choice scope (a.scopes.IsCancelled scope) m).1 =
          .ended (.failed error) := congrArg Prod.fst (Option.some.inj h)
      unfold pause at hpause
      split at hpause
      · cases hpause
      · split at hpause <;> cases hpause
        exact .inr ⟨rfl, by simpa using ‹decide _ = true›⟩
  | waiting scope waiter =>
      rcases Option.map_eq_some_iff.1 h with ⟨⟨going, rest⟩, hresume, heq⟩
      obtain rfl : going = .ended (.failed error) := congrArg Prod.fst heq
      simp only [resume] at hresume
      split at hresume
      · cases hresume
      · split at hresume <;> cases hresume
        exact .inr ⟨rfl, by simpa using ‹decide _ = true›⟩

/-- A source in memory gives a read up only if its scope is cancelled, and never times out. -/
theorem candid_port : port.Candid where
  cancelled {choice point scope a m a' m'} hwithin hturn := by
    cases point with
    | outside caller => cases hturn
    | inside read =>
        obtain rfl := scope_of_runsIn hwithin
        rcases failed_of_step hturn with hclosed | ⟨-, hcancelled⟩
        · cases hclosed
        · exact hcancelled
  timeout {choice point a m a' m'} hturn := by
    cases point with
    | outside caller => cases hturn
    | inside read =>
        rcases failed_of_step hturn with hclosed | ⟨hcancelled, -⟩
        · cases hclosed
        · cases hcancelled

/-! ## What a turn of a read changes -/

/-- All is as it was but for the batches, and for who waits. -/
structure Same (m m' : Memory) : Prop where
  inputClosed : m'.inputClosed = m.inputClosed
  failingConnects : m'.failingConnects = m.failingConnects
  shutDown : m'.shutDown = m.shutDown
  acks : m'.acks = m.acks

theorem Same.refl (m : Memory) : m.Same m := ⟨rfl, rfl, rfl, rfl⟩

/-- Waking a reader changes only who waits. -/
theorem same_notify (m : Memory) : m.Same m.notify ∧ m.notify.batches = m.batches := by
  unfold notify
  split
  · exact ⟨⟨rfl, rfl, rfl, rfl⟩, rfl⟩
  · exact ⟨⟨rfl, rfl, rfl, rfl⟩, rfl⟩

/-- A batch that is pushed comes last. -/
theorem batches_push (m : Memory) (batch : Batch) :
    m.Same (m.push batch) ∧ (m.push batch).batches = m.batches ++ [(m.next, batch)] := by
  rcases same_notify (m.add batch) with ⟨hsame, hbatches⟩
  exact ⟨⟨hsame.inputClosed, hsame.failingConnects, hsame.shutDown, hsame.acks⟩, hbatches⟩

/-- Closing the input leaves the batches. -/
theorem same_closeInput (m : Memory) :
    Same { m with inputClosed := true } m.closeInput ∧ m.closeInput.batches = m.batches :=
  same_notify { m with inputClosed := true }

/-- Connecting only counts. -/
theorem connect_eq (caller : Scope) {a a' : Ambient} {m m' : Memory}
    {result : Except ReadError Unit} (h : connect caller a m = (result, a', m')) :
    ∃ connects failing, m' = { m with connects := connects, failingConnects := failing } := by
  have hstate : (connect caller a m).2.2 = m' := congrArg (fun result => result.2.2) h
  rw [← hstate, connect]
  dsimp only
  split
  · exact ⟨_, _, rfl⟩
  · split <;> exact ⟨_, _, rfl⟩

/-- A source that does not refuse to connect, and is not shut down, connects or tells of its
end. -/
theorem connect_cases {caller : Scope} {a a' : Ambient} {m m' : Memory}
    {result : Except ReadError Unit} (reachable : m.failingConnects = 0)
    (opened : m.shutDown = false) (connects : connect caller a m = (result, a', m')) :
    m.Same m' ∧ m'.batches = m.batches ∧
      (result = .ok () ∨ result = .error .closed ∧ m.batches = [] ∧ m.inputClosed = true) := by
  simp only [connect, reachable, opened, Nat.lt_irrefl, if_false, Bool.false_or] at connects
  split at connects
  next hended =>
    rcases connects with ⟨rfl, -, rfl⟩
    rw [Bool.and_eq_true, List.isEmpty_iff] at hended
    exact ⟨⟨rfl, reachable.symm, opened.symm, rfl⟩, rfl, .inr ⟨rfl, hended.2, hended.1⟩⟩
  next =>
    rcases connects with ⟨rfl, -, rfl⟩
    exact ⟨⟨rfl, reachable.symm, opened.symm, rfl⟩, rfl, .inl rfl⟩

/-- All that a turn of a read can do: the first batch is handed out, or the batches stay. -/
inductive Turns (m : Memory) : Going → Memory → Prop
  | goesOn {read : Reading} {m' : Memory} (same : m.Same m') (batches : m'.batches = m.batches) :
      Turns m (.going read) m'
  | delivers {id : Nat} {batch : Batch} {receipt : Receipt} {m' : Memory} (same : m.Same m')
      (batches : m.batches = (id, batch) :: m'.batches) :
      Turns m (.ended (.delivered batch receipt)) m'
  | closes (ended : m.shutDown = true ∨ m.batches = [] ∧ m.inputClosed = true) :
      Turns m (.ended (.failed .closed)) m
  | givesUp {m' : Memory} (same : m.Same m') (batches : m'.batches = m.batches) :
      Turns m (.ended (.failed .cancelled)) m'

theorem turns_look (scope : Scope) (m : Memory) : m.Turns (look scope m).1 (look scope m).2 := by
  unfold look
  split
  next hshut => exact .closes (.inl hshut)
  next =>
    split
    next id batch rest hbatches => exact .delivers ⟨rfl, rfl, rfl, rfl⟩ hbatches
    next hnone =>
      split
      next hclosed => exact .closes (.inr ⟨hnone, hclosed⟩)
      next => exact .goesOn (.refl m) rfl

theorem turns_pause (choice : Choice) (scope : Scope) (cancelled : Bool) (m : Memory) :
    m.Turns (pause choice scope cancelled m).1 (pause choice scope cancelled m).2 := by
  unfold pause
  split
  · exact .goesOn ⟨rfl, rfl, rfl, rfl⟩ rfl
  · split
    · exact .givesUp (.refl m) rfl
    · exact .goesOn ⟨rfl, rfl, rfl, rfl⟩ rfl

theorem turns_resume {choice : Choice} {scope : Scope} {waiter : Nat} {cancelled : Bool}
    {m m' : Memory} {going : Going}
    (h : resume choice scope waiter cancelled m = some (going, m')) : m.Turns going m' := by
  simp only [resume] at h
  split at h
  · obtain ⟨rfl, rfl⟩ := Prod.mk.inj (Option.some.inj h)
    exact .goesOn ⟨rfl, rfl, rfl, rfl⟩ rfl
  · split at h
    · obtain ⟨rfl, rfl⟩ := Prod.mk.inj (Option.some.inj h)
      split
      · rcases same_notify { m with
          woken := m.woken.filter (· ≠ waiter), waiting := m.waiting.filter (· ≠ waiter) } with
          ⟨hsame, hbatches⟩
        exact .givesUp ⟨hsame.inputClosed, hsame.failingConnects, hsame.shutDown, hsame.acks⟩
          hbatches
      · exact .givesUp ⟨rfl, rfl, rfl, rfl⟩ rfl
    · cases h

/-- A turn of a read is one of these. -/
theorem turns_of_turn {choice : Choice} {point : port.Point} {a a' : Ambient} {m m' : Memory}
    {going : Going} (h : port.turn choice point a m = some (going, a', m')) : m.Turns going m' := by
  cases point with
  | outside caller =>
      rcases Option.some.inj h with ⟨rfl, -, rfl⟩
      exact .goesOn ⟨rfl, rfl, rfl, rfl⟩ rfl
  | inside read =>
      cases read with
      | looking scope =>
          rcases Option.some.inj h with ⟨rfl, -, rfl⟩
          exact turns_look scope m
      | pausing scope =>
          rcases Option.some.inj h with ⟨rfl, -, rfl⟩
          exact turns_pause choice scope _ m
      | waiting scope waiter =>
          rcases Option.map_eq_some_iff.1 h with ⟨⟨found, rest⟩, hresume, heq⟩
          rcases heq with ⟨rfl, -, rfl⟩
          exact turns_resume hresume

/-! ## What a step of a read finds -/

/-- The source without a reader that waits or was woken. -/
def without (m : Memory) (waiter : Nat) : Memory :=
  { m with woken := m.woken.filter (· ≠ waiter), waiting := m.waiting.filter (· ≠ waiter) }

/-- All that a step of a read can do, whose scope is cancelled or not. -/
inductive Steps (m : Memory) (cancelled : Bool) : Reading → Going → Memory → Prop
  /-- The source was shut down. -/
  | shut {scope : Scope} (shutDown : m.shutDown = true) :
      Steps m cancelled (.looking scope) (.ended (.failed .closed)) m
  /-- The first batch is handed out, with its number and its texts. -/
  | delivers {scope : Scope} {id : Nat} {batch : Batch} {rest : List (Nat × Batch)}
      (opened : m.shutDown = false) (head : m.batches = (id, batch) :: rest) :
      Steps m cancelled (.looking scope) (.ended (.delivered batch ⟨id, batch.texts⟩))
        { m with batches := rest }
  /-- There is no batch, and there will be none. -/
  | ends {scope : Scope} (opened : m.shutDown = false) (empty : m.batches = [])
      (closed : m.inputClosed = true) :
      Steps m cancelled (.looking scope) (.ended (.failed .closed)) m
  /-- There is no batch yet. -/
  | findsNone {scope : Scope} (opened : m.shutDown = false) (empty : m.batches = [])
      (more : m.inputClosed = false) :
      Steps m cancelled (.looking scope) (.going (.pausing scope)) m
  /-- There is a permit, and the read looks again. -/
  | permitted {scope : Scope} (permit : m.permit = true) :
      Steps m cancelled (.pausing scope) (.going (.looking scope)) { m with permit := false }
  /-- The read was cancelled before it waits. -/
  | turnsBack {scope : Scope} (gone : cancelled = true) :
      Steps m cancelled (.pausing scope) (.ended (.failed .cancelled)) m
  /-- The read waits, the last of all. -/
  | waits {scope : Scope} (permit : m.permit = false) (stays : cancelled = false) :
      Steps m cancelled (.pausing scope) (.going (.waiting scope m.nextWaiter))
        { m with waiting := m.waiting ++ [m.nextWaiter], nextWaiter := m.nextWaiter + 1 }
  /-- The read was woken, and looks again. -/
  | wakes {scope : Scope} {waiter : Nat} (woken : waiter ∈ m.woken) :
      Steps m cancelled (.waiting scope waiter) (.going (.looking scope)) (m.without waiter)
  /-- The read was woken and is cancelled: it wakes another. -/
  | passesOn {scope : Scope} {waiter : Nat} (woken : waiter ∈ m.woken)
      (gone : cancelled = true) :
      Steps m cancelled (.waiting scope waiter) (.ended (.failed .cancelled))
        (m.without waiter).notify
  /-- The read is cancelled while it waits. -/
  | leaves {scope : Scope} {waiter : Nat} (waits : waiter ∉ m.woken)
      (gone : cancelled = true) :
      Steps m cancelled (.waiting scope waiter) (.ended (.failed .cancelled)) (m.without waiter)

theorem steps_look (scope : Scope) (cancelled : Bool) (m : Memory) :
    m.Steps cancelled (.looking scope) (look scope m).1 (look scope m).2 := by
  unfold look
  split
  next hshut => exact .shut hshut
  next hopened =>
    have hopened : m.shutDown = false := by simpa using hopened
    split
    next id batch rest head => exact .delivers hopened head
    next hempty =>
      split
      next hclosed => exact .ends hopened hempty hclosed
      next hgoing => exact .findsNone hopened hempty (by simpa using hgoing)

theorem steps_pause (choice : Choice) (scope : Scope) (cancelled : Bool) (m : Memory) :
    m.Steps cancelled (.pausing scope) (pause choice scope cancelled m).1
      (pause choice scope cancelled m).2 := by
  unfold pause
  split
  next hpermit =>
    rw [Bool.and_eq_true] at hpermit
    exact .permitted hpermit.1
  next hnot =>
    split
    next hcancelled => exact .turnsBack hcancelled
    next hgoing =>
      have hgoing : cancelled = false := by simpa using hgoing
      exact .waits (by simpa [hgoing] using hnot) hgoing

theorem steps_resume {choice : Choice} {scope : Scope} {waiter : Nat} {cancelled : Bool}
    {m m' : Memory} {going : Going}
    (h : resume choice scope waiter cancelled m = some (going, m')) :
    m.Steps cancelled (.waiting scope waiter) going m' := by
  simp only [resume] at h
  split at h
  next hwoken =>
    obtain ⟨rfl, rfl⟩ := Prod.mk.inj (Option.some.inj h)
    rw [Bool.and_eq_true] at hwoken
    exact .wakes (by simpa using hwoken.1)
  next =>
    split at h
    next hcancelled =>
      obtain ⟨rfl, rfl⟩ := Prod.mk.inj (Option.some.inj h)
      split
      next hwoken => exact .passesOn (by simpa using hwoken) hcancelled
      next hwaits => exact .leaves (by simpa using hwaits) hcancelled
    next => cases h

/-- A step of a read is one of these, and leaves what is shared as it is. -/
theorem steps_of_step {choice : Choice} {read : Reading} {a a' : Ambient} {m m' : Memory}
    {going : Going} (h : step choice read a m = some (going, a', m')) :
    m.Steps (a.scopes.IsCancelled read.scope) read going m' ∧ a' = a := by
  refine ⟨?_, step_ambient h⟩
  cases read with
  | looking scope =>
      rcases Option.some.inj h with ⟨rfl, -, rfl⟩
      exact steps_look scope _ m
  | pausing scope =>
      rcases Option.some.inj h with ⟨rfl, -, rfl⟩
      exact steps_pause choice scope _ m
  | waiting scope waiter =>
      rcases Option.map_eq_some_iff.1 h with ⟨⟨found, rest⟩, hresume, heq⟩
      rcases heq with ⟨rfl, -, rfl⟩
      exact steps_resume hresume

/-- A step of a read changes only the batches, and who waits. -/
theorem Steps.same {m m' : Memory} {cancelled : Bool} {read : Reading} {going : Going}
    (h : m.Steps cancelled read going m') : m.Same m' := by
  cases h with
  | shut | ends | findsNone | turnsBack => exact .refl m
  | delivers | permitted | waits | wakes | leaves => exact ⟨rfl, rfl, rfl, rfl⟩
  | @passesOn scope waiter woken gone =>
      have hsame := ((m.without waiter).same_notify).1
      exact ⟨hsame.inputClosed, hsame.failingConnects, hsame.shutDown, hsame.acks⟩

/-! ## What the owner does -/

/-- What the owner of a source does to it, at any time. -/
inductive Deed where
  | push (batch : Batch)
  | closeInput
  | failConnects (n : Nat)

/-- The source after a deed. -/
def Deed.apply : Deed → Memory → Memory
  | .push batch, m => m.push batch
  | .closeInput, m => m.closeInput
  | .failConnects n, m => m.failConnects n

/-- A source that nobody has used: empty, or with some batches and closed for input. -/
inductive Unused : Memory → Prop
  | empty : Unused .empty
  | finite (batches : List Batch) : Unused (.finite batches)

/-- Batches that are added are numbered on; nothing else changes. -/
theorem foldl_add_eq (batches : List Batch) (m : Memory)
    (numbers : m.batches.map Prod.fst = List.range m.next) :
    ∃ queued next, queued.map Prod.fst = List.range next ∧
      batches.foldl add m = { m with batches := queued, next := next } := by
  induction batches generalizing m with
  | nil => exact ⟨m.batches, m.next, numbers, rfl⟩
  | cons batch rest ih =>
      have hadd : (m.add batch).batches.map Prod.fst = List.range (m.add batch).next := by
        simp [add, numbers, List.range_succ]
      exact ih (m.add batch) hadd

/-- In a source that nobody has used there are only batches, numbered from the first. -/
theorem Unused.eq {source : Memory} (h : Unused source) :
    ∃ queued next closed, queued.map Prod.fst = List.range next ∧
      source = { Memory.empty with batches := queued, next := next, inputClosed := closed } := by
  cases h with
  | empty => exact ⟨[], 0, false, rfl, rfl⟩
  | finite batches =>
      rcases foldl_add_eq batches .empty rfl with ⟨queued, next, hnumbers, heq⟩
      refine ⟨queued, next, true, hnumbers, ?_⟩
      rw [Memory.finite, heq]

end Memory
end Redelivery
