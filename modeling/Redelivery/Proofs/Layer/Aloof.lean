import Redelivery.Proofs.Layer.WakeUp

/-!
# A layer cancels no scope of its callers

A read through a layer opens a scope of its own, and a layer cancels only such scopes: as a
read ends, and as a failure is reported.  If the port inside touches nothing that is shared, a
scope that is nobody's own in this sense stays as it is.

Main definitions:

* `Layer.Reading.own`: the scope that a read has opened for itself.
* `Watch.Apart`: a scope is not one that the layer, or a read of it, would cancel.

Main results:

* Theorem `Layer.Turn.spares`: what a turn of a read leaves alone.
-/

namespace Redelivery

/-- Cancelling another scope leaves the flag of a scope. -/
theorem Ambient.flag_cancel_of_ne (a : Ambient) {scope : Scope} {id : Nat} (h : scope.id ≠ id) :
    (a.cancel scope).scopes.flag id = a.scopes.flag id := by
  have hne : id ≠ scope.id := Ne.symm h
  simp [Ambient.cancel, Scopes.flag_cancel, hne]

/-- A new scope leaves the flags of those that exist. -/
theorem Ambient.flag_childScope (a : Ambient) (outer : Scope) (id : Nat) :
    (a.childScope outer).2.scopes.flag id = a.scopes.flag id :=
  a.scopes.flag_child outer id

namespace Layer

variable {settings : Settings} {P : Port}

/-- The scope that a read has opened for itself. -/
def Reading.own : Reading P → Scope
  | .armed scope => scope
  | .asking scope _ => scope
  | .pacing _ scope _ _ => scope
  | .draining scope _ => scope

/-- A read that asks the port inside does so in its own scope. -/
theorem Asks.own_eq {layer : Layer P} {point : (port settings P).Point} {scope : Scope}
    {inside : P.Point} (asks : Asks settings layer point scope inside) :
    ∃ read : Reading P, point = .inside read ∧ read.own = scope := by
  cases asks with
  | begins | goesOn => exact ⟨_, rfl, rfl⟩

/-- A read that finds the end of the port inside is in its own scope, and an aloof port has
touched nothing. -/
theorem AtEnd.own_eq (aloof : P.Aloof) {choice : Choice} {a a' : Ambient} {layer : Layer P}
    {point : (port settings P).Point} {scope : Scope} {inner : P.State}
    (atEnd : AtEnd settings choice a layer point scope a' inner) :
    a' = a ∧ ∃ read : Reading P, point = .inside read ∧ read.own = scope := by
  cases atEnd with
  | flagged | looked => exact ⟨rfl, _, rfl, rfl⟩
  | answered asks turn => exact ⟨aloof.turn turn, asks.own_eq⟩

/-- As an entry is handed out, the read's own scope is cancelled and no other. -/
theorem HandsOut.flag_eq {scope : Scope} {entry : Entry P.Receipt} {a a' : Ambient} {batch : Batch}
    {held : Held P.Receipt} (hands : HandsOut scope entry a batch held a') {id : Nat}
    (ne : scope.id ≠ id) : a'.scopes.flag id = a.scopes.flag id := by
  cases hands with
  | single => exact a.flag_cancel_of_ne ne
  | several => exact Ambient.flag_cancel_of_ne _ ne

/-- A turn of a read around an aloof port leaves a scope as it is that exists and is not the
read's own; nor does it become that. -/
theorem Turn.spares (aloof : P.Aloof) {choice : Choice} {a a' : Ambient} {layer layer' : Layer P}
    {point : (port settings P).Point} {progress : Going P}
    (turn : Turn settings choice a layer point progress a' layer') {id : Nat}
    (exists' : id < a.scopes.flags.size)
    (apart : ∀ read : Reading P, point = .inside read → read.own.id ≠ id) :
    a'.scopes.flag id = a.scopes.flag id ∧
      ∀ read : Reading P, progress = .going read → read.own.id ≠ id := by
  have hnew : ∀ caller, (a.childScope caller).1.id ≠ id := fun _ => Nat.ne_of_gt exists'
  have hended : ∀ (answer : Answer (Held P.Receipt)) (read : Reading P),
      (.ended answer : Going P) = .going read → read.own.id ≠ id := by
    intro answer read h
    cases h
  have hasks : ∀ {scope inside}, Asks settings layer point scope inside → scope.id ≠ id := by
    intro scope inside asks
    rcases asks.own_eq with ⟨read, hpoint, rfl⟩
    exact apart read hpoint
  cases turn with
  | @arms caller empty =>
      refine ⟨a.flag_childScope caller id, ?_⟩
      rintro _ ⟨⟩
      exact hnew caller
  | @redelivers caller entry rest backoff batch held a' head atOnce hands =>
      exact ⟨(hands.flag_eq (hnew caller)).trans (a.flag_childScope caller id), hended _⟩
  | @breaks caller entry rest reason head late next =>
      refine ⟨Eq.trans ?_ (a.flag_childScope caller id), hended _⟩
      exact Ambient.flag_cancel_of_ne _ (hnew caller)
  | @paces caller entry rest delay backoff head late next positive =>
      refine ⟨a.flag_childScope caller id, ?_⟩
      rintro _ ⟨⟩
      exact hnew caller
  | resumes passed hands => exact ⟨hands.flag_eq (apart _ rfl), hended _⟩
  | putsBack cancelled => exact ⟨a.flag_cancel_of_ne (apart _ rfl), hended _⟩
  | asks asks turn =>
      rw [aloof.turn turn]
      refine ⟨rfl, ?_⟩
      rintro _ ⟨⟩
      exact hasks asks
  | receives asks turn hands => exact ⟨aloof.turn turn ▸ hands.flag_eq (hasks asks), hended _⟩
  | fails asks turn opened =>
      rw [aloof.turn turn]
      exact ⟨a.flag_cancel_of_ne (hasks asks), hended _⟩
  | dies asks turn =>
      rw [aloof.turn turn]
      exact ⟨a.flag_cancel_of_ne (hasks asks), hended _⟩
  | ends atEnd drained =>
      rcases atEnd.own_eq aloof with ⟨rfl, read, hpoint, rfl⟩
      exact ⟨Ambient.flag_cancel_of_ne _ (apart read hpoint), hended _⟩
  | holds atEnd pending =>
      rcases atEnd.own_eq aloof with ⟨rfl, read, hpoint, rfl⟩
      refine ⟨rfl, ?_⟩
      rintro _ ⟨⟩
      exact apart read hpoint
  | interrupted cancelled => exact ⟨a.flag_cancel_of_ne (apart _ rfl), hended _⟩

/-- Connecting a layer around an aloof port touches nothing that is shared. -/
theorem connect_ambient (aloof : P.Aloof) {caller : Scope} {a a' : Ambient}
    {layer layer' : Layer P} {result : Except ReadError Unit}
    (connects : connect caller a layer = (result, a', layer')) : a' = a := by
  rcases connect_cases caller a layer with ⟨found, b, inner, hinner, hcases⟩
  obtain rfl : b = a := (congrArg (fun x => x.2.1) hinner).symm.trans (aloof.connect caller a _)
  rcases hcases with ⟨-, -, heq⟩ | ⟨-, heq⟩
  · exact (congrArg (fun x => x.2.1) (heq.symm.trans connects)).symm
  · exact (congrArg (fun x => x.2.1) (heq.symm.trans connects)).symm

/-- A report to a layer around an aloof port cancels at most the scope that was armed last. -/
theorem settle_spares (aloof : P.Aloof) {held : Held P.Receipt} {outcome : Outcome}
    {settlement : Settlement} {a a' : Ambient} {layer layer' : Layer P}
    (settles : settle held outcome a layer = (settlement, a', layer')) {id : Nat}
    (ne : layer.backlog.interrupt.id ≠ id) : a'.scopes.flag id = a.scopes.flag id := by
  cases outcome with
  | processed =>
      rcases settles with ⟨rfl, rfl, rfl⟩
      rw [aloof.settle]
  | failed failure =>
      rcases settles with ⟨rfl, rfl, rfl⟩
      exact a.flag_cancel_of_ne ne

end Layer

namespace Watch

variable {settings : Settings} {P : Port}

/-- A scope exists, and is neither the one that was armed last nor that of a read. -/
structure Apart (s : Watch settings P) (id : Nat) : Prop where
  exists' : id < s.ambient.scopes.flags.size
  interrupt : s.layer.backlog.interrupt.id ≠ id
  own : ∀ reader ∈ s.readers, reader.read.value.own.id ≠ id

/-- It stays so as long as no other scope is armed and the reads are the same. -/
theorem Apart.still {s s' : Watch settings P} {id : Nat} (h : s.Apart id)
    (grows : s.ambient.scopes.Grows s'.ambient.scopes)
    (interrupt : s'.layer.backlog.interrupt = s.layer.backlog.interrupt)
    (readers : s'.readers = s.readers) : s'.Apart id where
  exists' := Nat.lt_of_lt_of_le h.exists' grows.size_le
  interrupt := interrupt ▸ h.interrupt
  own := readers ▸ h.own

/-- A turn of the only read leaves such a scope as it is. -/
theorem Apart.turn (aloof : P.Aloof) {s s' : Watch settings P} {id number : Nat} (h : s.Apart id)
    {choice : Choice} {point : (Layer.watched settings P).Point}
    {progress : Progress (Layer.watched settings P).Read (Layer.watched settings P).Receipt}
    (turn : (Layer.watched settings P).turn choice point s.ambient s.state =
      some (progress, s'.ambient, s'.state))
    (only : ∀ read, point = .inside read → ⟨number, read⟩ ∈ s.readers)
    (readers : s'.readers = Reader.after number progress) :
    s'.Apart id ∧ s'.ambient.scopes.flag id = s.ambient.scopes.flag id := by
  rcases Port.recorded_turn turn with ⟨plain, hplain, rfl, -⟩
  have hturn := Layer.turn_cases hplain
  have hspares := hturn.spares aloof.recorded h.exists' (by
    rintro _ hpoint
    cases point with
    | outside caller => cases hpoint
    | inside read =>
        cases hpoint
        exact h.own _ (only read rfl))
  refine ⟨⟨?_, ?_, ?_⟩, hspares.1⟩
  · exact Nat.lt_of_lt_of_le h.exists' (hturn.grows aloof.recorded.steady).scopes.size_le
  · rcases hturn.interrupt_eq with hsame | ⟨-, hnew⟩
    · exact hsame ▸ h.interrupt
    · exact fun heq => Nat.ne_of_gt h.exists' (hnew.symm.trans heq)
  · intro reader hreader
    rw [readers] at hreader
    cases plain with
    | going read =>
        obtain rfl := List.mem_singleton.1 hreader
        exact hspares.2 read rfl
    | ended answer => cases answer <;> cases hreader

end Watch

end Redelivery
