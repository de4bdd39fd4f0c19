import Redelivery.Consumer.Flaky
import Redelivery.Proofs.Consumer.Reach
import Redelivery.Proofs.Layer.Narrowing
import Redelivery.Proofs.Layer.Parts

/-!
# Parts that pass are not delivered again

A processor that rejects parts by chance names every part that it has rejected, and no other.
So whatever chance decides, a part of a delivery has either passed and been counted, or it is
delivered again.

Main definitions:

* `Flaky.passedParts`: the parts that have passed, by what came of their batch.

Main results:

* Theorem `Flaky.passed_finish`: the parts that pass are counted.
* Theorem `Flaky.serials_finish`: every part of a delivery passes, or is left.
-/

namespace Redelivery

/-! ## Naming parts -/

namespace PartialFailure

/-- Marking a part as failed leaves the batch as its processor saw it. -/
@[simp]
theorem batch_failed (failure : PartialFailure) (place : Nat) (error : String) :
    (failure.failed place error).batch = failure.batch := by
  simp only [batch, failed]
  refine List.ext_getElem? fun i => ?_
  simp only [List.getElem?_map, List.getElem?_modify]
  by_cases hplace : place = i <;> cases failure.parts[i]? <;> simp [hplace]

/-- A part that is marked for the first time is one more. -/
theorem errorCount_failed {failure : PartialFailure} {place : Nat} {part : Part}
    (unmarked : failure.parts[place]? = some (part, none)) (error : String) :
    (failure.failed place error).errorCount = failure.errorCount + 1 := by
  rcases failure with ⟨cause, parts⟩
  change (parts.modify place fun entry => (entry.1, some error)).countP (·.2.isSome) =
    parts.countP (·.2.isSome) + 1
  change parts[place]? = some (part, none) at unmarked
  induction parts generalizing place with
  | nil => cases unmarked
  | cons entry rest ih =>
      cases place with
      | zero =>
          obtain rfl : entry = (part, none) := by simpa using unmarked
          simp
      | succ place =>
          have hrest := ih (by simpa using unmarked)
          simp only [List.modify_succ_cons, List.countP_cons, hrest]
          omega

/-- Marking some parts, each once, counts them all. -/
theorem errorCount_foldl_failed (error : Nat → String) {places : List Nat} (nodup : places.Nodup)
    {failure : PartialFailure}
    (unmarked : ∀ place ∈ places, ∃ part, failure.parts[place]? = some (part, none)) :
    (places.foldl (fun f place => f.failed place (error place)) failure).errorCount =
      failure.errorCount + places.length := by
  induction places generalizing failure with
  | nil => rfl
  | cons place places ih =>
      rcases List.nodup_cons.1 nodup with ⟨hnew, hnodup⟩
      rcases unmarked place List.mem_cons_self with ⟨part, hpart⟩
      have hrest : ∀ other ∈ places, ∃ part,
          (failure.failed place (error place)).parts[other]? = some (part, none) := by
        intro other hother
        have hne : place ≠ other := fun heq => hnew (heq ▸ hother)
        rcases unmarked other (List.mem_cons_of_mem _ hother) with ⟨found, hfound⟩
        exact ⟨found, by simpa [failed, List.getElem?_modify, hne] using hfound⟩
      rw [List.foldl_cons, ih hnodup hrest, errorCount_failed hpart, List.length_cons]
      omega

theorem batch_foldl_failed (error : Nat → String) (places : List Nat) (failure : PartialFailure) :
    (places.foldl (fun f place => f.failed place (error place)) failure).batch = failure.batch := by
  induction places generalizing failure with
  | nil => rfl
  | cons place places ih => rw [List.foldl_cons, ih, batch_failed]

end PartialFailure

namespace Flaky

/-- Rejecting parts makes none. -/
theorem steady_processor {draws : Nat → UInt64} {rate : Binary64} {span : Duration} :
    (processor draws rate span).Steady :=
  fun _ _ _ => ⟨Nat.le_refl _, Nat.le_refl _⟩

/-- The parts of a batch that have passed, by what came of it. -/
def passedParts : Batch × Option Outcome → Batch
  | (batch, some .processed) => batch
  | (_, some (.failed (.parts failure))) => failure.passedParts
  | _ => []

/-- A batch is processed if no part was rejected; otherwise those that were are named. -/
theorem outcome_cases {batch : Batch} {places : List Nat} (nodup : places.Nodup)
    (within : ∀ place ∈ places, place < batch.length) :
    places = [] ∧ outcome batch places = .processed ∨
      ∃ failure, outcome batch places = .failed (.parts failure) ∧ failure.batch = batch ∧
        failure.errorCount = places.length ∧ failure.failedParts ≠ [] := by
  by_cases hnone : places = []
  · exact .inl ⟨hnone, by simp [hnone, outcome]⟩
  · refine .inr ⟨_, by rw [outcome, if_neg (by simpa using hnone)], ?_⟩
    have hcount : (places.foldl (fun f place => f.failed place s!"part {place} rejected")
        (PartialFailure.ofBatch batch "part rejected")).errorCount = places.length := by
      rw [PartialFailure.errorCount_foldl_failed _ nodup, PartialFailure.errorCount_ofBatch,
        Nat.zero_add]
      intro place hplace
      have hlt := within place hplace
      exact ⟨batch.get ⟨place, hlt⟩, by simp [PartialFailure.ofBatch, hlt]⟩
    refine ⟨?_, hcount, fun hparts => ?_⟩
    · rw [PartialFailure.batch_foldl_failed, PartialFailure.batch_ofBatch]
    · rw [← PartialFailure.length_failedParts, hparts] at hcount
      exact hnone (List.length_eq_zero_iff.1 hcount.symm)

/-- All parts have passed but those that were rejected. -/
theorem length_passedParts {batch : Batch} {places : List Nat} (nodup : places.Nodup)
    (within : ∀ place ∈ places, place < batch.length) :
    (passedParts (batch, some (outcome batch places))).length = batch.length - places.length := by
  rcases outcome_cases nodup within with ⟨rfl, houtcome⟩ | ⟨failure, houtcome, hbatch, hcount, -⟩
  · rw [houtcome]
    rfl
  · have hlength := failure.length_passedParts
    rw [hbatch, hcount] at hlength
    rw [houtcome]
    exact Nat.eq_sub_of_add_eq hlength

/-- Every part of a delivery has passed, or is left to deliver again. -/
theorem serials_outcome {ρ : Type} {held : Held ρ} {batch : Batch} (delivers : held.Delivers batch)
    {places : List Nat} (nodup : places.Nodup) (within : ∀ place ∈ places, place < batch.length) :
    Batch.serials (passedParts (batch, some (outcome batch places))) +
      Batch.serials (held.left (outcome batch places)) = Batch.serials held.entry.batch := by
  rcases outcome_cases nodup within with ⟨-, houtcome⟩ | ⟨failure, houtcome, hbatch, -, hfailed⟩
  · rw [houtcome, Batch.serials_congr (.of_eq delivers.contents_eq.symm)]
    exact Multiset.add_zero _
  · rw [houtcome]
    cases delivers with
    | @single entry hone =>
        -- The only part has failed, so none has passed.
        have hlength := failure.length_passedParts
        have hpositive := List.length_pos_iff.2 hfailed
        rw [hbatch, hone] at hlength
        rw [failure.length_failedParts] at hpositive
        have hnone : failure.passedParts = [] := List.length_eq_zero_iff.1 (by omega)
        change Batch.serials failure.passedParts + Batch.serials entry.batch = _
        rw [hnone]
        exact Multiset.zero_add _
    | @several entry group hlength hsize =>
        change Batch.serials failure.passedParts +
          Batch.serials (retrySubset entry.batch group (.parts failure)) = Batch.serials entry.batch
        rw [Batch.serials_congr (contents_retrySubset hsize hbatch hfailed),
          ← Batch.serials_append, ← Batch.serials_congr (.of_eq (group.contents_tag entry.batch)),
          ← hbatch]
        exact Batch.serials_congr (failure.perm_batch.map _)

variable (draws : Nat → UInt64) (bound : Nat) (batch : Batch) (flaky : Flaky)

/-- What is rejected is rejected once, and is a part of the batch. -/
theorem rejected_places (drawn size : Nat) :
    (rejected draws bound drawn size).Nodup ∧
      ∀ place ∈ rejected draws bound drawn size, place < size :=
  ⟨List.Nodup.filter _ List.nodup_range,
    fun _ hplace => List.mem_range.1 (List.mem_filter.1 hplace).1⟩

/-- The parts that pass are counted. -/
theorem passed_finish : (finish draws bound batch flaky).2.passed =
    flaky.passed + (passedParts (batch, some (finish draws bound batch flaky).1)).length := by
  rcases rejected_places draws bound flaky.drawn batch.length with ⟨hnodup, hwithin⟩
  exact congrArg (flaky.passed + ·) (length_passedParts hnodup hwithin).symm

/-- Every part of a delivery passes, or is left to deliver again. -/
theorem serials_finish {ρ : Type} {held : Held ρ} (delivers : held.Delivers batch) :
    Batch.serials (passedParts (batch, some (finish draws bound batch flaky).1)) +
      Batch.serials (held.left (finish draws bound batch flaky).1) =
        Batch.serials held.entry.batch := by
  rcases rejected_places draws bound flaky.drawn batch.length with ⟨hnodup, hwithin⟩
  exact serials_outcome delivers hnodup hwithin

end Flaky

end Redelivery
