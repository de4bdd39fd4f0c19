import Redelivery.Proofs.Port.Recorded
import Redelivery.Proofs.Session.Reach

/-!
# Ports that behave alike

A map between two ports takes states to states, reads to reads and receipts to receipts,
and commutes with everything that a port does.  Whoever uses one of the two cannot tell
it from the other: whatever can happen to one can happen to the other.

A journal is the example that matters here: to forget it is such a map.

Main definitions:

* `Port.Hom`: a map between ports.
* `Port.Hom.refl`, `Port.Hom.comp`, `Port.forget`: mapping nothing, maps one after the other,
  and forgetting a journal.
* `Session.map`: a session of one port as a session of the other.

Main results:

* Theorems `Session.map_startRead`, `Session.map_stepRead`, `Session.map_report`,
  `Session.map_connect`, `Session.map_close`: a map commutes with what happens to a
  session, and with what its users are told.
* Theorem `Session.Reaches.lift`: what can be reached with one port comes from what can be
  reached with the other.
-/

namespace Redelivery

/-- The answer with another receipt. -/
def Answer.map {ρ ρ' : Type} (f : ρ → ρ') : Answer ρ → Answer ρ'
  | .delivered batch receipt => .delivered batch (f receipt)
  | .failed error => .failed error
  | .died reason => .died reason

/-- The same progress with another read, and another receipt. -/
def Progress.map {θ θ' ρ ρ' : Type} (f : θ → θ') (g : ρ → ρ') : Progress θ ρ → Progress θ' ρ'
  | .going read => .going (f read)
  | .ended answer => .ended (answer.map g)

@[simp]
theorem Progress.map_map {θ θ' θ'' ρ ρ' ρ'' : Type} (f : θ → θ') (g : ρ → ρ') (f' : θ' → θ'')
    (g' : ρ' → ρ'') (progress : Progress θ ρ) :
    (progress.map f g).map f' g' = progress.map (f' ∘ f) (g' ∘ g) := by
  cases progress with
  | going read => rfl
  | ended answer => cases answer <;> rfl

/-- If nothing is mapped, the progress stays. -/
theorem Progress.map_id {θ ρ : Type} : (Progress.map id id : Progress θ ρ → Progress θ ρ) = id := by
  funext progress
  rcases progress with read | answer
  · rfl
  · cases answer <;> rfl

/-- Numbers can be forgotten. -/
@[simp]
theorem Progress.map_numbered {θ ρ : Type} (read delivery : Nat) (progress : Progress θ ρ) :
    (progress.numbered read delivery).map Numbered.value Numbered.value = progress := by
  cases progress with
  | going read => rfl
  | ended answer => cases answer <;> rfl

/-- A map between ports, which commutes with all that they do. -/
structure Port.Hom (P Q : Port) where
  state : P.State → Q.State
  read : P.Read → Q.Read
  receipt : P.Receipt → Q.Receipt
  map_connect : ∀ caller a s,
    Q.connect caller a (state s) = Prod.map id (Prod.map id state) (P.connect caller a s)
  map_close : ∀ caller a s,
    Q.close caller a (state s) = Prod.map id (Prod.map id state) (P.close caller a s)
  map_start : ∀ choice caller a s, Q.start choice caller a (state s) =
    Prod.map (Progress.map read receipt) (Prod.map id state) (P.start choice caller a s)
  map_step : ∀ choice r a s, Q.step choice (read r) a (state s) =
    (P.step choice r a s).map (Prod.map (Progress.map read receipt) (Prod.map id state))
  map_wake : ∀ r s, Q.wake (read r) (state s) = P.wake r s
  map_settle : ∀ r outcome a s,
    Q.settle (receipt r) outcome a (state s) =
      Prod.map id (Prod.map id state) (P.settle r outcome a s)

namespace Port

variable {P Q R : Port}

/-- Nothing is mapped. -/
def Hom.refl (P : Port) : P.Hom P where
  state := id
  read := id
  receipt := id
  map_connect caller a s := rfl
  map_close caller a s := rfl
  map_start choice caller a s := by simp [Progress.map_id]
  map_step choice r a s := by simp [Progress.map_id]
  map_wake r s := rfl
  map_settle r outcome a s := rfl

/-- Two maps one after the other. -/
def Hom.comp (f : P.Hom Q) (g : Q.Hom R) : P.Hom R where
  state := g.state ∘ f.state
  read := g.read ∘ f.read
  receipt := g.receipt ∘ f.receipt
  map_connect caller a s := by simp [g.map_connect, f.map_connect, Prod.map]
  map_close caller a s := by simp [g.map_close, f.map_close, Prod.map]
  map_start choice caller a s := by simp [g.map_start, f.map_start, Prod.map]
  map_step choice r a s := by
    rw [Function.comp_apply, Function.comp_apply, g.map_step, f.map_step, Option.map_map]
    simp only [Function.comp_def, Prod.map, Progress.map_map]
    rfl
  map_wake r s := by simp [g.map_wake, f.map_wake]
  map_settle r outcome a s := by simp [g.map_settle, f.map_settle, Prod.map]

/-- Forgetting a journal. -/
def forget (P : Port) : P.recorded.Hom P where
  state := Recorded.state
  read := Numbered.value
  receipt := Numbered.value
  map_connect caller a s := rfl
  map_close caller a s := rfl
  map_start choice caller a s := by simp
  map_step choice r a s := by simp [Function.comp_def, Prod.map]
  map_wake r s := rfl
  map_settle r outcome a s := rfl

end Port

/-! ## Sessions -/

namespace Session

variable {P Q : Port} (f : P.Hom Q)

/-- A session of one port as a session of another. -/
def map (s : Session P) : Session Q where
  ambient := s.ambient
  state := f.state s.state
  readers := s.readers.map fun reader => ⟨reader.id, f.read reader.read⟩
  deliveries := s.deliveries.map fun delivery =>
    ⟨delivery.id, delivery.batch, f.receipt delivery.receipt⟩
  next := s.next

/-- What is told of the end of a read is the same. -/
theorem map_conclude (s : Session P) (number : Nat) (answer : Answer P.Receipt) :
    (s.map f).conclude number (answer.map f.receipt) =
      Prod.map id (map f) (s.conclude number answer) := by
  cases answer with
  | delivered | failed | died => simp [conclude, map, Answer.map]

theorem map_dropReader (s : Session P) (number : Nat) :
    (s.map f).dropReader number = (s.dropReader number).map f := by
  simp [dropReader, map, List.filter_map, Function.comp_def]

/-- A read begins alike. -/
theorem map_startRead (s : Session P) (choice : Choice) (caller : Scope) :
    (s.map f).startRead choice caller = Prod.map id (map f) (s.startRead choice caller) := by
  rcases hstart : P.start choice caller s.ambient s.state with ⟨progress, a, state⟩
  have hmap : Q.start choice caller (s.map f).ambient (s.map f).state =
      (progress.map f.read f.receipt, a, f.state state) := by
    rw [map, f.map_start, hstart]
    rfl
  simp only [startRead, hstart, hmap]
  cases progress with
  | going read => simp [Progress.map, map]
  | ended answer =>
      have hconclude := map_conclude f ⟨a, state, s.readers, s.deliveries, s.next + 1⟩ s.next answer
      exact congrArg (fun r => (some r.1, r.2)) hconclude

/-- A read goes on alike. -/
theorem map_stepRead (s : Session P) (choice : Choice) (number : Nat) :
    (s.map f).stepRead choice number =
      (s.stepRead choice number).map (Prod.map id (map f)) := by
  have hfind : (s.map f).readers.find? (·.id = number) =
      (s.readers.find? (·.id = number)).map fun reader => ⟨reader.id, f.read reader.read⟩ := by
    rw [map, List.find?_map]
    rfl
  simp only [stepRead, hfind]
  cases s.readers.find? (·.id = number) with
  | none => rfl
  | some reader =>
      have hstep : Q.step choice (f.read reader.read) (s.map f).ambient (s.map f).state = _ :=
        f.map_step choice reader.read s.ambient s.state
      simp only [Option.map_some, Option.bind_eq_bind, Option.bind_some, hstep]
      cases P.step choice reader.read s.ambient s.state with
      | none => rfl
      | some result =>
          rcases result with ⟨progress, a, state⟩
          cases progress with
          | going read =>
              have hreplace : (s.map f).readers.map (fun reader =>
                    if reader.id = number then ⟨number, f.read read⟩ else reader) =
                  (s.readers.map fun reader =>
                    if reader.id = number then ⟨number, read⟩ else reader).map
                      fun reader => ⟨reader.id, f.read reader.read⟩ := by
                simp only [map, List.map_map]
                refine List.map_congr_left fun other _ => ?_
                by_cases hother : other.id = number <;> simp [hother]
              simp only [Option.map_some, Option.bind_some, Prod.map, Progress.map, hreplace]
              rfl
          | ended answer =>
              have hconclude := map_conclude f
                (dropReader ⟨a, state, s.readers, s.deliveries, s.next⟩ number) number answer
              rw [← map_dropReader] at hconclude
              exact congrArg (fun r => some (some r.1, r.2)) hconclude

/-- A report is taken alike. -/
theorem map_report (s : Session P) (number : Nat) (outcome : Outcome) :
    (s.map f).report number outcome = (s.report number outcome).map (Prod.map id (map f)) := by
  have hfind : (s.map f).deliveries.find? (·.id = number) =
      (s.deliveries.find? (·.id = number)).map fun delivery =>
        ⟨delivery.id, delivery.batch, f.receipt delivery.receipt⟩ := by
    rw [map, List.find?_map]
    rfl
  simp only [report, hfind]
  cases s.deliveries.find? (·.id = number) with
  | none => rfl
  | some delivery => simp [map, f.map_settle, List.filter_map, Function.comp_def]

/-- Connecting is answered alike. -/
theorem map_connect (s : Session P) (caller : Scope) :
    (s.map f).connect caller = Prod.map id (map f) (s.connect caller) := by
  simp only [connect, map, f.map_connect]
  rfl

/-- Closing is answered alike. -/
theorem map_close (s : Session P) (caller : Scope) :
    (s.map f).close caller = Prod.map id (map f) (s.close caller) := by
  simp only [close, map, f.map_close]
  rfl

/-- Whatever can happen to one port can happen to the other: all that is reached comes from
something that is reached there. -/
theorem Reaches.lift {D : Discipline P} {E : Discipline Q}
    (enters : ∀ s caller, E.enters (s.map f) caller → D.enters s caller)
    (changes : ∀ g, E.changes g → ∃ g', D.changes g' ∧ ∀ s, f.state (g' s) = g (f.state s))
    {start : Session P} {t : Session Q} (h : Reaches E (start.map f) t) :
    ∃ s, Reaches D start s ∧ s.map f = t := by
  induction h with
  | start => exact ⟨start, .start, rfl⟩
  | step _ hstep ih =>
      rcases ih with ⟨s, hs, rfl⟩
      cases hstep with
      | @startRead choice caller allowed =>
          refine ⟨_, hs.step (.startRead choice (enters s caller allowed)), ?_⟩
          rw [map_startRead]
          rfl
      | stepRead hread =>
          rw [map_stepRead] at hread
          rcases Option.map_eq_some_iff.1 hread with ⟨⟨reply, s'⟩, hread, heq⟩
          exact ⟨s', hs.step (.stepRead hread), congrArg Prod.snd heq⟩
      | report hreport =>
          rw [map_report] at hreport
          rcases Option.map_eq_some_iff.1 hreport with ⟨⟨settlement, s'⟩, hreport, heq⟩
          exact ⟨s', hs.step (.report hreport), congrArg Prod.snd heq⟩
      | @connect caller allowed =>
          refine ⟨_, hs.step (.connect (enters s caller allowed)), ?_⟩
          rw [map_connect]
          rfl
      | close caller =>
          refine ⟨_, hs.step (.close caller), ?_⟩
          rw [map_close]
          rfl
      | @change g own =>
          rcases changes g own with ⟨g', hg', heq⟩
          refine ⟨_, hs.step (.change hg'), ?_⟩
          simp only [map, change, heq]
      | elapse grows => exact ⟨_, hs.step (.elapse grows), rfl⟩

end Session

end Redelivery
