import Mathlib.Data.List.Count
import Mathlib.Data.List.Nodup
import Redelivery.Proofs.Layer.Narrowing

/-!
# Which parts a failure calls for

A failure of some parts carries an error at some places of the batch as its processor saw
it.  The part at each of these places is traced back to the place where it stood in the
batch that was delivered.  If there are fewer places than the batch has parts, at least one,
and each is traced back, then the parts found there are delivered again, in the order of the
places that carry an error; otherwise the whole batch is.

Nothing is done about copies of one part that have all failed: the part is found once for
each of them.

Main definitions:

* `PartialFailure.failedPlaces`: the places that carry an error.
* `PartialFailure.origins`: where the parts at these places stood in the delivered batch.
* `Group.copy`: the copy of a part that a group hands out.
* `Correlated`: what is left of a batch, by the places that carry an error.

Main results:

* Theorem `retrySubset_correlates`: what is delivered again, for any batch and any failure.
* Theorem `left_as_often_as_failed`: if only copies of the delivered parts are reported on, each
  part is delivered again as often as copies of it have failed.
-/

namespace Redelivery

namespace PartialFailure

/-- The places at which there is an error, from the first to the last. -/
def failedPlaces (failure : PartialFailure) : List Nat :=
  failure.parts.findIdxs (·.2.isSome)

/-- Where the parts that carry an error stood in the batch of a group; `none` for a part that
does not come from there. -/
def origins (failure : PartialFailure) (group : Group) : List (Option Nat) :=
  failure.failedPlaces.map fun k => failure.batch[k]?.bind group.indexOf

/-- There are as many places as errors are counted. -/
theorem length_failedPlaces (failure : PartialFailure) :
    failure.failedPlaces.length = failure.errorCount :=
  List.length_findIdxs

/-- At the places that carry an error stand the parts that have failed. -/
private theorem getElem?_failedPlaces_from (before parts : List (Part × Option String)) :
    (parts.findIdxs (·.2.isSome) before.length).map
        (fun k => ((before ++ parts).map Prod.fst)[k]?) =
      (Redelivery.failedParts parts).map some := by
  induction parts generalizing before with
  | nil => rfl
  | cons entry rest ih =>
      have hrest := ih (before ++ [entry])
      rw [List.append_assoc, List.singleton_append, List.length_append,
        List.length_singleton] at hrest
      rcases entry with ⟨part, _ | error⟩
      · simpa [List.findIdxs_cons, Redelivery.failedParts] using hrest
      · simpa [List.findIdxs_cons, Redelivery.failedParts] using hrest

theorem getElem?_failedPlaces (failure : PartialFailure) :
    failure.failedPlaces.map (failure.batch[·]?) = failure.failedParts.map some :=
  getElem?_failedPlaces_from [] failure.parts

/-- The parts that have failed are traced back one after the other. -/
theorem origins_eq (failure : PartialFailure) (group : Group) :
    failure.origins group = failure.failedParts.map group.indexOf := by
  have hparts := congrArg (List.map (Option.bind · group.indexOf)) failure.getElem?_failedPlaces
  rw [List.map_map, List.map_map] at hparts
  exact hparts

end PartialFailure

namespace Group

/-- A part is traced back to a place in the group's batch. -/
theorem indexOf_lt {group : Group} {part : Part} {i : Nat} (h : group.indexOf part = some i) :
    i < group.size := by
  unfold indexOf at h
  rw [Option.filter_eq_some_iff] at h
  simpa using h.2

/-- A part is found in the batch of a group if it can be traced back there. -/
theorem find_eq_none_iff {group : Group} {batch : Batch} (size : group.size = batch.length)
    (part : Part) : group.find batch part = none ↔ group.indexOf part = none := by
  constructor
  · intro h
    cases hindex : group.indexOf part with
    | none => rfl
    | some i =>
        have hlt : i < batch.length := size ▸ group.indexOf_lt hindex
        simp [find, hindex, hlt] at h
  · intro h
    simp [find, h]

/-- The parts that are found stand at the places to which they are traced back. -/
theorem exists_places {group : Group} {batch subset parts : Batch}
    (h : parts.map (group.find batch) = subset.map some) :
    ∃ places : List (Fin batch.length),
      parts.map group.indexOf = places.map (fun i => some i.val) ∧
        subset = places.map batch.get := by
  induction parts generalizing subset with
  | nil =>
      rw [List.map_nil, eq_comm, List.map_eq_nil_iff] at h
      exact ⟨[], rfl, h⟩
  | cons part rest ih =>
      cases subset with
      | nil => simp at h
      | cons found subset =>
          rw [List.map_cons, List.map_cons, List.cons.injEq] at h
          rcases ih h.2 with ⟨places, hrest, rfl⟩
          rcases Option.bind_eq_some_iff.1 h.1 with ⟨i, hindex, hfound⟩
          rcases List.getElem?_eq_some_iff.1 hfound with ⟨hlt, rfl⟩
          refine ⟨⟨i, hlt⟩ :: places, ?_, rfl⟩
          rw [List.map_cons, List.map_cons, hindex, hrest]

end Group

/-! ## What is delivered again -/

section

variable {kept : Batch} {group : Group} {failure : PartialFailure}

/-- A failure that names a part that cannot be traced back leaves all. -/
theorem retrySubset_of_untraced (untraced : ∃ part ∈ failure.failedParts,
    group.find kept part = none) : retrySubset kept group (.parts failure) = kept := by
  rcases untraced with ⟨part, hpart, hnone⟩
  rcases (retrySubset_narrows kept group (.parts failure)).covers with hall |
    ⟨_, hnamed, -, -, htraced⟩
  · exact hall
  · cases hnamed
    rcases htraced part hpart with ⟨index, other, -, hindex, hkept⟩
    simp [Group.find, hindex, hkept] at hnone

/-- A failure that names as many parts as there are, or none, leaves all. -/
theorem retrySubset_of_count (h : kept.length ≤ failure.errorCount ∨ failure.errorCount = 0) :
    retrySubset kept group (.parts failure) = kept := by
  rcases (retrySubset_narrows kept group (.parts failure)).covers with hall |
    ⟨_, hnamed, hfewer, hsome, -⟩
  · exact hall
  · cases hnamed
    have hlength := failure.length_failedParts
    have hpos := List.length_pos_iff.2 hsome
    omega

/-- A failure that names some parts and not all, each of which can be traced back, leaves
those. -/
theorem retrySubset_of_traced (fewer : failure.errorCount < kept.length)
    (named : failure.errorCount ≠ 0)
    (traced : ∀ part ∈ failure.failedParts, group.find kept part ≠ none) :
    failure.failedParts.map (group.find kept) =
      (retrySubset kept group (.parts failure)).map some := by
  have hsome : ∀ part ∈ failure.failedParts, (group.find kept part).isSome :=
    fun part hpart => Option.isSome_iff_ne_none.2 (traced part hpart)
  rcases exists_walkFrom_collectFailed hsome 0 [] with ⟨result, hwalk⟩
  rcases walkFrom_collectFailed hwalk with ⟨subset, hresult, hsubset⟩
  obtain rfl : result = subset := hresult
  have hsubset : failure.failedParts.map (group.find kept) = result.map some := hsubset
  have hlength := congrArg List.length hsubset
  rw [List.length_map, List.length_map, failure.length_failedParts] at hlength
  cases result with
  | nil => exact absurd hlength named
  | cons part rest =>
      have hnot : ¬kept.length ≤ failure.errorCount := Nat.not_le_of_lt fewer
      rw [hsubset, retrySubset, if_neg hnot, PartialFailure.walk, hwalk]

/-- What a failure leaves of a batch, by the places that carry an error. -/
structure Correlated (kept : Batch) (group : Group) (failure : PartialFailure) (left : Batch) :
    Prop where
  /-- All is left if there is an error for every part, or none, or one at a part that cannot
  be traced back. -/
  all : kept.length ≤ failure.failedPlaces.length ∨ failure.failedPlaces = [] ∨
    none ∈ failure.origins group → left = kept
  /-- Otherwise the parts are left to which the errors are traced back, in their order and as
  many as there are errors. -/
  named : failure.failedPlaces.length < kept.length → failure.failedPlaces ≠ [] →
    none ∉ failure.origins group → ∃ places : List (Fin kept.length),
      failure.origins group = places.map (fun i => some i.val) ∧ left = places.map kept.get ∧
        left.length = failure.failedPlaces.length ∧ 0 < left.length ∧ left.length < kept.length

/-- What a failure leaves of a batch, for any group of that size. -/
theorem correlated_retrySubset (size : group.size = kept.length) :
    Correlated kept group failure (retrySubset kept group (.parts failure)) := by
  have hplaces := failure.length_failedPlaces
  constructor
  · rintro (hall | hnone | huntraced)
    · exact retrySubset_of_count (.inl (hplaces ▸ hall))
    · rw [hnone, List.length_nil] at hplaces
      exact retrySubset_of_count (.inr hplaces.symm)
    · rw [failure.origins_eq, List.mem_map] at huntraced
      rcases huntraced with ⟨part, hpart, hindex⟩
      exact retrySubset_of_untraced ⟨part, hpart, (Group.find_eq_none_iff size part).2 hindex⟩
  · intro hfewer hsome htraced
    have hpos := List.length_pos_iff.2 hsome
    have hfound : ∀ part ∈ failure.failedParts, group.find kept part ≠ none := by
      intro part hpart hnone
      apply htraced
      rw [failure.origins_eq, ← (Group.find_eq_none_iff size part).1 hnone]
      exact List.mem_map_of_mem hpart
    have hleft := retrySubset_of_traced (hplaces ▸ hfewer) (by omega) hfound
    rcases Group.exists_places hleft with ⟨places, horigins, heq⟩
    have hlength := congrArg List.length hleft
    rw [List.length_map, List.length_map, failure.length_failedParts, ← hplaces] at hlength
    exact ⟨places, failure.origins_eq group ▸ horigins, heq, hlength.symm, hlength ▸ hpos,
      hlength ▸ hfewer⟩

end

/-- What is delivered again of a batch that was tracked by a fresh group.

* A failure as a whole leaves all.
* A failure of some parts leaves those, or all.
* If no tag of the batch is younger than the group, what is left has no tag of the group. -/
theorem retrySubset_correlates (mint : Mint) (kept : Batch) :
    (∀ reason, retrySubset kept (mint.track kept).1 (.whole reason) = kept) ∧
      (∀ failure, Correlated kept (mint.track kept).1 failure
        (retrySubset kept (mint.track kept).1 (.parts failure))) ∧
      ((∀ part ∈ kept, ∀ tag ∈ part.tags, tag.group < mint.groups) →
        ∀ failure, ∀ part ∈ retrySubset kept (mint.track kept).1 failure, ∀ tag ∈ part.tags,
          tag.group ≠ (mint.track kept).1.id) := by
  refine ⟨fun _ => rfl, fun failure => correlated_retrySubset rfl, ?_⟩
  intro known failure part hpart tag htag
  have hkept := (retrySubset_narrows kept (mint.track kept).1 failure).mem hpart
  exact Nat.ne_of_lt (known part hkept tag htag)

/-! ## Copies of the delivered parts -/

namespace Group

/-- The copy of the part at a place that a group hands out. -/
def copy (group : Group) (batch : Batch) (i : Fin batch.length) : Part :=
  (batch.get i).tagged ⟨group.id, i⟩

/-- A copy is traced back to the place of its part. -/
theorem indexOf_copy {group : Group} {batch : Batch} (size : group.size = batch.length)
    (i : Fin batch.length) : group.indexOf (group.copy batch i) = some i.val := by
  have hlt : i.val < group.size := size.symm ▸ i.isLt
  rw [copy, indexOf_tagged, if_pos hlt]

/-- Copies of different places are different, even if their parts are the same. -/
theorem copy_injective {group : Group} {batch : Batch} (size : group.size = batch.length) :
    Function.Injective (group.copy batch) := by
  intro i j h
  have hindex := congrArg group.indexOf h
  rw [indexOf_copy size, indexOf_copy size] at hindex
  exact Fin.ext (Option.some.inj hindex)

/-- All that a group hands out are copies. -/
theorem exists_copy_of_mem_tag {group : Group} {batch : Batch} {part : Part}
    (h : part ∈ group.tag batch) : ∃ i, part = group.copy batch i := by
  rcases List.getElem?_of_mem h with ⟨i, hi⟩
  rw [getElem?_tag, Option.map_eq_some_iff] at hi
  rcases hi with ⟨original, horiginal, rfl⟩
  rcases List.getElem?_eq_some_iff.1 horiginal with ⟨hlt, rfl⟩
  exact ⟨⟨i, hlt⟩, rfl⟩

/-- Copies that are traced back to some places are the copies of these places. -/
theorem eq_map_copy {group : Group} {batch parts : Batch} (size : group.size = batch.length)
    (copies : ∀ part ∈ parts, part ∈ group.tag batch) {places : List (Fin batch.length)}
    (h : parts.map group.indexOf = places.map (fun i => some i.val)) :
    parts = places.map (group.copy batch) := by
  induction parts generalizing places with
  | nil =>
      rw [List.map_nil, eq_comm, List.map_eq_nil_iff] at h
      rw [h, List.map_nil]
  | cons part rest ih =>
      cases places with
      | nil => simp at h
      | cons i places =>
          rw [List.map_cons, List.map_cons, List.cons.injEq] at h
          rcases exists_copy_of_mem_tag (copies part List.mem_cons_self) with ⟨j, rfl⟩
          have hplace : j.val = i.val := Option.some.inj ((indexOf_copy size j).symm.trans h.1)
          have hrest := ih (fun other hother => copies other (List.mem_cons_of_mem _ hother)) h.2
          rw [List.map_cons, Fin.ext hplace, ← hrest]

end Group

/-- If copies of the delivered parts are reported on and no others, and the batch is narrowed,
the parts are left whose copies have failed. -/
theorem exists_copies_failed {kept : Batch} {group : Group} {failure : PartialFailure}
    (size : group.size = kept.length) (copies : ∀ part ∈ failure.batch, part ∈ group.tag kept)
    (narrows : (retrySubset kept group (.parts failure)).length < kept.length) :
    ∃ places : List (Fin kept.length),
      retrySubset kept group (.parts failure) = places.map kept.get ∧
        failure.failedParts = places.map (group.copy kept) := by
  have hcorrelated : Correlated kept group failure _ := correlated_retrySubset size
  have hsome : ¬(kept.length ≤ failure.failedPlaces.length ∨ failure.failedPlaces = [] ∨
      none ∈ failure.origins group) := by
    intro hall
    rw [hcorrelated.all hall] at narrows
    exact Nat.lt_irrefl _ narrows
  rw [not_or, not_or, Nat.not_le] at hsome
  rcases hcorrelated.named hsome.1 hsome.2.1 hsome.2.2 with ⟨places, horigins, hleft, -⟩
  rw [failure.origins_eq] at horigins
  have hfailed : ∀ part ∈ failure.failedParts, part ∈ group.tag kept := by
    intro part hpart
    exact copies part (failure.perm_batch.mem_iff.1 (List.mem_append_right _ hpart))
  exact ⟨places, hleft, Group.eq_map_copy size hfailed horigins⟩

/-- If copies of the delivered parts are reported on and no others, and the batch is narrowed,
each part is left as often as copies of it have failed: never twice exactly if no copy of it
has failed at two places. -/
theorem left_as_often_as_failed (mint : Mint) (kept : Batch) {failure : PartialFailure}
    (copies : ∀ part ∈ failure.batch, part ∈ (mint.track kept).2.1)
    (narrows : (retrySubset kept (mint.track kept).1 (.parts failure)).length < kept.length) :
    ∃ places : List (Fin kept.length),
      retrySubset kept (mint.track kept).1 (.parts failure) = places.map kept.get ∧
        (∀ i, places.count i = failure.failedParts.count ((mint.track kept).1.copy kept i)) ∧
        (places.Nodup ↔ failure.failedParts.Nodup) := by
  have size : (mint.track kept).1.size = kept.length := rfl
  have hinjective := Group.copy_injective size
  rcases exists_copies_failed size copies narrows with ⟨places, hleft, hfailed⟩
  refine ⟨places, hleft, ?_, ?_⟩
  · intro i
    rw [hfailed, List.count_map_of_injective _ _ hinjective]
  · rw [hfailed, List.nodup_map_iff hinjective]

/-! ## A batch of three parts -/

namespace Correlated.Tour

/-- Three parts. -/
def batch : Batch := (Mint.empty.batch [[97], [98], [99]]).1

/-- Their copies. -/
def copies : Batch := (Mint.empty.track batch).2.1

/-- Copies of some of them, by their places, have all failed. -/
def failed (places : List Nat) : PartialFailure where
  cause := "full"
  parts := (places.filterMap (copies[·]?)).map fun part => (part, some "too large")

/-- What is left when these copies have failed. -/
def left (places : List Nat) : Batch :=
  retrySubset batch (Mint.empty.track batch).1 (.parts (failed places))

/-- If the last part and the first have failed, in this order, they are left in this order. -/
theorem retrySubset_correlates_reordered :
    ∃ places : List (Fin batch.length),
      (failed [2, 0]).origins (Mint.empty.track batch).1 = places.map (fun i => some i.val) ∧
        left [2, 0] = places.map batch.get := by
  have hcorrelated := (retrySubset_correlates Mint.empty batch).2.1 (failed [2, 0])
  rcases hcorrelated.named (by decide) (by decide) (by decide) with ⟨places, horigins, hleft, -⟩
  exact ⟨places, horigins, hleft⟩

/-- No copy of them has failed twice, so neither part is left twice. -/
theorem left_once_if_failed_once :
    (∀ part ∈ (failed [2, 0]).batch, part ∈ copies) ∧ (left [2, 0]).length < batch.length ∧
      ∃ places : List (Fin batch.length), left [2, 0] = places.map batch.get ∧ places.Nodup := by
  have hcopies : ∀ part ∈ (failed [2, 0]).batch, part ∈ copies := by decide
  have hnarrows : (left [2, 0]).length < batch.length := by decide
  rcases left_as_often_as_failed Mint.empty batch hcopies hnarrows with
    ⟨places, hleft, -, hnodup⟩
  exact ⟨hcopies, hnarrows, places, hleft, hnodup.2 (by decide)⟩

/-- A copy of the first part has failed twice, and the part is left twice. -/
theorem left_twice_if_failed_twice :
    (∀ part ∈ (failed [0, 0]).batch, part ∈ copies) ∧ (left [0, 0]).length < batch.length ∧
      ¬∃ places : List (Fin batch.length), left [0, 0] = places.map batch.get ∧ places.Nodup := by
  refine ⟨by decide, by decide, ?_⟩
  rintro ⟨places, hleft, hnodup⟩
  -- The parts of the batch are different, so different places would give different parts.
  have hbatch : Function.Injective batch.get := List.nodup_iff_injective_get.1 (by decide)
  have hparts := (List.nodup_map_iff hbatch).2 hnodup
  rw [← hleft] at hparts
  exact absurd hparts (by decide)

end Correlated.Tour

end Redelivery
