import Redelivery.Proofs.Consumer.Recorded
import Redelivery.Proofs.Port.Hom

/-!
# Consumers that behave alike

A consumer looks at its port and at its processor only through what they do.  So if a map
between two ports commutes with all that the ports do, and one between two processors with all
that the processors do, then consumers on both sides take the same steps.

To forget what is written down on either side is such a map: what holds of consumers with
journals holds of those without.

Main definitions:

* `Processor.Hom`, `Processor.forget`: a map between processors, and forgetting what was done.
* `Consumer.map`: a consumer on the other side.

Main results:

* Theorem `Consumer.map_stepMain`, `Consumer.map_stepTask`: the steps are the same.
-/

namespace Redelivery

/-- A map between processors, which commutes with all that they do. -/
structure Processor.Hom (W V : Processor) where
  state : W.State → V.State
  job : W.Job → V.Job
  map_start : ∀ now batch s,
    V.start now batch (state s) = Prod.map job (Prod.map id state) (W.start now batch s)
  map_finish : ∀ j mint s,
    V.finish (job j) mint (state s) = Prod.map id (Prod.map id state) (W.finish j mint s)

namespace Processor

/-- Nothing is mapped. -/
def Hom.refl (W : Processor) : W.Hom W := ⟨id, id, fun _ _ _ => rfl, fun _ _ _ => rfl⟩

/-- Forgetting what was done. -/
def forget (W : Processor) : W.recorded.Hom W :=
  ⟨Worked.state, Prod.snd, fun _ _ _ => rfl, fun _ _ _ => rfl⟩

end Processor

variable {W V : Processor}

/-- The stage with another processor. -/
def Stage.map (g : W.Hom V) : Stage W → Stage V
  | .spawned batch => .spawned batch
  | .working job due => .working (g.job job) due

/-- The task with another processor. -/
def Task.map (g : W.Hom V) (task : Task W) : Task V := ⟨task.id, task.stage.map g⟩

namespace Consumer

variable {P Q : Port} (f : P.Hom Q) (g : W.Hom V)

/-- The consumer on the other side of two maps. -/
def map (c : Consumer P W) : Consumer Q V where
  session := c.session.map f
  worker := g.state c.worker
  reconnectDelay := c.reconnectDelay
  shutdown := c.shutdown
  phase := c.phase
  tasks := c.tasks.map (Task.map g)
  endings := c.endings
  report := c.report

theorem map_take (c : Consumer P W) (id : Nat) (reply : Reply) :
    (c.map f g).take id reply = (c.take id reply).map f g := by
  rcases reply with batch | error | reason
  · simp [take, tally, map, Task.map, Stage.map]
  · cases error <;> rfl
  · rfl

/-- The loop takes the same step. -/
theorem map_stepMain (c : Consumer P W) (choice : Choice) :
    (c.map f g).stepMain choice = (c.stepMain choice).map (map f g) := by
  have hstopping : (c.map f g).stopping = c.stopping := rfl
  have hphase : (c.map f g).phase = c.phase := rfl
  unfold stepMain
  rw [hphase, hstopping]
  cases c.phase with
  | connecting =>
      cases c.stopping with
      | true => rfl
      | false =>
          have hconnect : (c.map f g).session.connect (c.map f g).shutdown =
              Prod.map id (Session.map f) (c.session.connect c.shutdown) :=
            c.session.map_connect f c.shutdown
          simp only [hconnect]
          rcases c.session.connect c.shutdown with ⟨error | ⟨⟩, session⟩
          · cases error <;> rfl
          · rfl
  | pausing due =>
      have hnow : (c.map f g).session.ambient = c.session.ambient := rfl
      simp only [hnow, Option.map_map]
      rfl
  | ready =>
      cases c.stopping with
      | true => rfl
      | false =>
          have hread : (c.map f g).session.startRead choice (c.map f g).shutdown =
              Prod.map id (Session.map f) (c.session.startRead choice c.shutdown) :=
            c.session.map_startRead f choice c.shutdown
          simp only [hread]
          rcases c.session.startRead choice c.shutdown with ⟨_ | reply, session⟩
          · rfl
          · exact congrArg some
              (map_take f g { c with session, phase := .reading c.session.next } _ reply)
  | reading number =>
      have hread : (c.map f g).session.stepRead choice number =
          (c.session.stepRead choice number).map (Prod.map id (Session.map f)) :=
        c.session.map_stepRead f choice number
      simp only [hread, Option.map_map]
      congr 1
      funext result
      rcases result with ⟨_ | reply, session⟩
      · rfl
      · exact map_take f g { c with session } number reply
  | joining =>
      have hendings : (c.map f g).endings = c.endings := rfl
      have htasks : (c.map f g).tasks.isEmpty = c.tasks.isEmpty := List.isEmpty_map
      simp only [hendings, htasks]
      cases c.endings.isEmpty with
      | false => rfl
      | true =>
          cases c.tasks.isEmpty with
          | false => rfl
          | true =>
              have hclose : ((c.map f g).session.scope false).2.close
                  ((c.map f g).session.scope false).1 = Prod.map id (Session.map f)
                    ((c.session.scope false).2.close (c.session.scope false).1) :=
                (c.session.scope false).2.map_close f _
              simp only [Bool.not_true, Bool.false_eq_true, if_false, if_true, hclose]
              rfl
  | finished => rfl
  | died => rfl

theorem find?_map (tasks : List (Task W)) (number : Nat) :
    (tasks.map (Task.map g)).find? (·.id = number) =
      (tasks.find? (·.id = number)).map (Task.map g) := by
  rw [List.find?_map]
  rfl

/-- A task takes the same step. -/
theorem map_stepTask (c : Consumer P W) (number : Nat) :
    (c.map f g).stepTask number = (c.stepTask number).map (map f g) := by
  have hfind : (c.map f g).tasks.find? (·.id = number) =
      (c.tasks.find? (·.id = number)).map (Task.map g) := find?_map g c.tasks number
  have hambient : (c.map f g).session.ambient = c.session.ambient := rfl
  have hworker : (c.map f g).worker = g.state c.worker := rfl
  unfold stepTask
  rw [hfind, hambient, hworker]
  cases c.tasks.find? (·.id = number) with
  | none => rfl
  | some task =>
      rcases task with ⟨own, batch | ⟨job, due⟩⟩
      · refine congrArg some ?_
        simp only [g.map_start]
        simp only [map, List.map_map]
        congr 1
        refine List.map_congr_left fun t _ => ?_
        by_cases hown : t.id = number
        · simp [hown, Task.map, Stage.map]
        · simp [hown, Task.map]
      · by_cases hearly : c.session.ambient.now < due
        · simp [Task.map, Stage.map, hearly]
        · simp only [Option.map_some, Option.bind_eq_bind, Option.bind_some, Task.map,
            Stage.map, if_neg hearly, g.map_finish]
          have hreport := (c.processed job).map_report f number (c.outcome job)
          have htasks : (c.tasks.map (Task.map g)).filter (·.id ≠ number) =
              (c.tasks.filter (·.id ≠ number)).map (Task.map g) := List.filter_map
          refine (congrArg (fun r => Option.bind r _) hreport).trans ?_
          change Option.bind (Option.map _ ((c.processed job).report number (c.outcome job))) _ =
            Option.map (map f g) (Option.bind ((c.processed job).report number (c.outcome job)) _)
          cases (c.processed job).report number (c.outcome job) with
          | none => rfl
          | some result =>
              simp only [Option.map_some, Option.bind_some, Option.pure_def, map, htasks]
              rfl

end Consumer

end Redelivery
