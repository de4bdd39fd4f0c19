import Redelivery.Consumer.Run

/-!
# A consumer on the clock

On the clock a consumer does nothing but take steps, of its loop and of its tasks, and let time
pass.  So whatever these keep holds as long as the consumer runs.

Main definitions:

* `Consumer.Persists`: the loop, the tasks and the clock keep something.

Main results:

* Theorem `Consumer.Persists.await`: then it is kept while somebody waits for the end.
-/

namespace Redelivery

/-- What is kept as everything goes on, and as time passes, is kept while a system runs. -/
theorem Timed.runFor_keeps {σ : Type} (system : Timed σ) {motive : σ → Prop}
    (settles : ∀ s, motive s → motive (system.settle s))
    (passes : ∀ s ms, motive s → motive (system.pass s ms)) (target moves : Nat) {s : σ}
    (h : motive s) : motive (system.runFor target moves s) := by
  induction moves generalizing s with
  | zero => exact settles s h
  | succ moves ih =>
      rw [runFor]
      split
      · exact settles s h
      · exact ih (passes _ _ (settles s h))

namespace Consumer

variable {P : Port} {W : Processor} {motive : Consumer P W → Prop}

/-- Something holds again after every step of the loop or of a task, and after time has passed. -/
structure Persists (motive : Consumer P W → Prop) : Prop where
  main : ∀ {c c' : Consumer P W} {choice : Choice},
    motive c → c.stepMain choice = some c' → motive c'
  task : ∀ {c c' : Consumer P W} {id : Nat}, motive c → c.stepTask id = some c' → motive c'
  passes : ∀ {c : Consumer P W} (ms : Nat),
    motive c → motive { c with session := c.session.advance ms }

namespace Persists

theorem runMain (h : Persists motive) (choice : Choice) (steps : Nat) {c : Consumer P W}
    (hc : motive c) : motive (c.runMain choice steps) := by
  induction steps generalizing c with
  | zero => exact hc
  | succ steps ih =>
      rw [Consumer.runMain]
      split
      · exact hc
      next c' hstep => exact ih (h.main hc hstep)

theorem runTask (h : Persists motive) {c : Consumer P W} (hc : motive c) (id : Nat) :
    motive (c.runTask id) := by
  rw [Consumer.runTask]
  split
  · exact hc
  next c' hstep =>
    have hc' := h.task hc hstep
    cases hagain : c'.stepTask id with
    | none => exact hc'
    | some c'' => exact h.task hc' hagain

theorem runTasks (h : Persists motive) (ids : List Nat) {c : Consumer P W} (hc : motive c) :
    motive (ids.foldl Consumer.runTask c) := by
  induction ids generalizing c with
  | nil => exact hc
  | cons id ids ih => exact ih (h.runTask hc id)

theorem settle (h : Persists motive) (choice : Choice) (steps turns : Nat) {c : Consumer P W}
    (hc : motive c) : motive (Consumer.settle choice steps turns c) := by
  induction turns generalizing c with
  | zero => exact hc
  | succ turns ih =>
      have hmain := h.runMain choice steps hc
      simp only [Consumer.settle]
      split
      · exact hmain
      · exact ih (h.runTasks _ hmain)

/-- What persists is kept while somebody waits for the end. -/
theorem await (h : Persists motive) (choice : Choice) (steps limit : Nat) {c : Consumer P W}
    (hc : motive c) : motive (c.await choice steps limit) :=
  Timed.runFor_keeps (timed choice steps) (fun _ hc => h.settle choice steps steps hc)
    (fun _ ms hc => h.passes ms hc) _ _ hc

end Persists

end Consumer

end Redelivery
