import Redelivery.Proofs.Port.Recorded
import Redelivery.Proofs.Session.Reach

/-!
# Sessions with a journal

A session of a port with a journal knows each delivery by the number that its receipt
carries.  Under that number the journal has what was handed out, and under that number it
has the report, once there is one.  So every number that was given is that of a delivery
that is not reported on, or of one report.

Main definitions:

* `Recorded.Changes`: the port changes by itself, and nothing is written down.
* `Session.Filed`: deliveries are in the journal under their numbers.
* `Session.Booked`: every number is in one place.

Main results:

* Theorem `Session.Move.filed`, `Session.Move.booked`: every move keeps it so.
-/

namespace Redelivery

variable {P : Port}

/-- A way for a port to change by itself: nothing is written down. -/
def Recorded.Changes (f : Recorded P → Recorded P) : Prop :=
  ∃ g : P.State → P.State, f = fun s => ⟨s.journal, g s.state⟩

/-- A turn that is written down tells its reader the same. -/
theorem Progress.reply_numbered {θ ρ : Type} (read delivery : Nat) (progress : Progress θ ρ) :
    (progress.numbered read delivery).reply = progress.reply := by
  cases progress with
  | going r => rfl
  | ended answer => cases answer <;> rfl

namespace Session

/-- The journal of a session. -/
abbrev journal (s : Session P.recorded) : Journal P.Receipt := s.state.journal

/-! ## Deliveries are filed -/

/-- Every delivery that is not reported on is in the journal, under the number that its
receipt carries. -/
def Filed (s : Session P.recorded) : Prop :=
  ∀ delivery ∈ s.deliveries, s.journal.issued[delivery.receipt.number]? =
    some (delivery.batch, delivery.receipt.value)

/-- What a turn comes to is filed as it is delivered. -/
theorem filed_turn {s : Session P.recorded} (hfiled : s.Filed) {choice : Choice}
    {point : P.recorded.Point} (id next : Nat) {readers : List (Reader P.recorded)}
    {progress : Progress P.recorded.Read P.recorded.Receipt} {a : Ambient}
    {state : P.recorded.State}
    (turn : P.recorded.turn choice point s.ambient s.state = some (progress, a, state)) :
    Filed (⟨a, state, readers, s.deliveries ++ Delivery.after id progress, next⟩ :
      Session P.recorded) := by
  rcases Port.recorded_turn_issued turn with ⟨hissued, -, hnumber⟩
  intro delivery hmem
  change state.journal.issued[delivery.receipt.number]? = _
  rw [hissued]
  rcases List.mem_append.1 hmem with hold | hnew
  · exact getElem?_append_of_eq_some (hfiled delivery hold) _
  · cases progress with
    | going read => simp [Delivery.after] at hnew
    | ended answer =>
        cases answer with
        | delivered batch receipt =>
            obtain rfl := List.mem_singleton.1 hnew
            have hlast : receipt.number = s.journal.issued.length :=
              hnumber (batch, receipt) (List.mem_singleton_self _)
            simp [Progress.issued, hlast]
        | failed error => simp [Delivery.after] at hnew
        | died reason => simp [Delivery.after] at hnew

/-- Deliveries stay filed as long as nothing is taken back from the journal. -/
theorem Filed.mono {s s' : Session P.recorded} (hfiled : s.Filed)
    (deliveries : s'.deliveries ⊆ s.deliveries)
    (issued : s'.journal.issued = s.journal.issued) : s'.Filed := by
  intro delivery hmem
  rw [issued]
  exact hfiled delivery (deliveries hmem)

/-- Deliveries stay filed. -/
theorem Move.filed {D : Discipline P.recorded} (own : ∀ f, D.changes f → Recorded.Changes f)
    {s s' : Session P.recorded} (move : s.Move D s') (hfiled : s.Filed) : s'.Filed := by
  cases move with
  | turns enters readers turn => exact filed_turn hfiled _ _ turn
  | @reports delivery outcome settlement before after a state deliveries settles =>
      rcases Port.recorded_settle settles with ⟨-, hjournal⟩
      have hissued : state.journal.issued = s.journal.issued := by
        simp [hjournal, Exchange.issued]
      refine hfiled.mono ?_ hissued
      rw [deliveries]
      exact (List.Sublist.append (.refl _) (List.sublist_cons_self ..)).subset
  | @connects caller result a state enters connects =>
      rcases Port.recorded_connect connects with ⟨-, hjournal⟩
      have hissued : state.journal.issued = s.journal.issued := by
        simp [hjournal, Exchange.issued]
      exact hfiled.mono (List.Subset.refl _) hissued
  | @closes caller result a state closes =>
      rcases Port.recorded_close closes with ⟨-, hjournal⟩
      have hissued : state.journal.issued = s.journal.issued := by
        simp [hjournal, Exchange.issued]
      exact hfiled.mono (List.Subset.refl _) hissued
  | changes hown =>
      rcases own _ hown with ⟨g, rfl⟩
      exact hfiled
  | elapses grows => exact hfiled

/-! ## Every number is in one place -/

/-- The numbers of the deliveries that are not reported on, and those of the reports. -/
def numbers (s : Session P.recorded) : List Nat :=
  s.deliveries.map (fun delivery => delivery.receipt.number) ++ s.journal.reports.map Prod.fst

/-- Every number that was given is that of a delivery that is not reported on, or of one
report. -/
def Booked (s : Session P.recorded) : Prop :=
  s.numbers.Perm (List.range s.journal.issued.length)

/-- What writes down neither a delivery nor a report keeps the numbers. -/
theorem Booked.same {s s' : Session P.recorded} (h : s.Booked)
    (deliveries : s'.deliveries = s.deliveries) (issued : s'.journal.issued = s.journal.issued)
    (reports : s'.journal.reports = s.journal.reports) : s'.Booked := by
  rw [Booked, numbers, deliveries, issued, reports]
  exact h

/-- What is handed out in a turn is given the next number. -/
theorem Booked.turn {s : Session P.recorded} (h : s.Booked) {choice : Choice}
    {point : P.recorded.Point} (id next : Nat) {readers : List (Reader P.recorded)}
    {progress : Progress P.recorded.Read P.recorded.Receipt} {a : Ambient}
    {state : P.recorded.State}
    (turn : P.recorded.turn choice point s.ambient s.state = some (progress, a, state)) :
    Booked (⟨a, state, readers, s.deliveries ++ Delivery.after id progress, next⟩ :
      Session P.recorded) := by
  rcases Port.recorded_turn_issued turn with ⟨hissued, hreports, hnumber⟩
  cases progress with
  | going read => exact h.same (List.append_nil _) (by simp [hissued, Progress.issued]) hreports
  | ended answer =>
      cases answer with
      | failed error =>
          exact h.same (List.append_nil _) (by simp [hissued, Progress.issued]) hreports
      | died reason =>
          exact h.same (List.append_nil _) (by simp [hissued, Progress.issued]) hreports
      | delivered batch receipt =>
          have hlast : receipt.number = s.journal.issued.length :=
            hnumber (batch, receipt) (List.mem_singleton_self _)
          have hlength : state.journal.issued.length = s.journal.issued.length + 1 := by
            rw [hissued]
            simp [Progress.issued]
          have hmore : (s.numbers ++ [s.journal.issued.length]).Perm
              (List.range (s.journal.issued.length + 1)) := by
            rw [List.range_succ]
            exact h.append_right _
          rw [Booked, numbers, hlength, hreports]
          refine .trans ?_ hmore
          simp only [Delivery.after, List.map_append, List.map_cons, List.map_nil, hlast, numbers,
            List.append_assoc]
          exact List.perm_append_comm.append_left _

/-- A report takes the number of its delivery. -/
theorem Booked.report {s s' : Session P.recorded} (h : s.Booked)
    {delivery : Delivery P.recorded} {before after : List (Delivery P.recorded)}
    {outcome : Outcome} {settlement : Settlement}
    (deliveries : s.deliveries = before ++ delivery :: after)
    (deliveries' : s'.deliveries = before ++ after)
    (journal : s'.journal =
      s.journal ++ [.reported delivery.receipt.number outcome settlement]) : s'.Booked := by
  have hissued : s'.journal.issued = s.journal.issued := by simp [journal, Exchange.issued]
  have hreports :
      s'.journal.reports = s.journal.reports ++ [(delivery.receipt.number, outcome)] := by
    simp [journal, Exchange.reports]
  rw [Booked, numbers, hissued, hreports, deliveries']
  refine .trans ?_ h
  simp only [numbers, deliveries, List.map_append, List.map_cons, List.map_nil, List.append_assoc,
    List.cons_append]
  refine .append_left _ ?_
  rw [← List.append_assoc]
  exact List.perm_append_singleton ..

/-- Every number stays in one place. -/
theorem Move.booked {D : Discipline P.recorded} (own : ∀ f, D.changes f → Recorded.Changes f)
    {s s' : Session P.recorded} (move : s.Move D s') (h : s.Booked) : s'.Booked := by
  cases move with
  | turns enters readers turn => exact h.turn _ _ turn
  | reports deliveries settles =>
      exact h.report deliveries rfl (Port.recorded_settle settles).2
  | @connects caller result a state enters connects =>
      rcases Port.recorded_connect connects with ⟨-, hjournal⟩
      have hsame : state.journal.issued = s.journal.issued ∧
          state.journal.reports = s.journal.reports := by
        simp [hjournal, Exchange.issued, Exchange.reports]
      exact h.same rfl hsame.1 hsame.2
  | @closes caller result a state closes =>
      rcases Port.recorded_close closes with ⟨-, hjournal⟩
      have hsame : state.journal.issued = s.journal.issued ∧
          state.journal.reports = s.journal.reports := by
        simp [hjournal, Exchange.issued, Exchange.reports]
      exact h.same rfl hsame.1 hsame.2
  | changes hown =>
      rcases own _ hown with ⟨g, rfl⟩
      exact h
  | elapses grows => exact h

end Session

end Redelivery
