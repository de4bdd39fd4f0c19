import Redelivery.Layer

/-!
# What a failure leaves to deliver again

A failure narrows a batch if it names some of its parts and not all, and every part that
it names can be traced back: then those are delivered again, in the order in which they
were named.  Otherwise the whole batch is delivered again.

Main definitions:

* `PartialFailure.failedParts`, `PartialFailure.passedParts`: the parts that a failure names,
  and the others.
* `Group.find`: the part of a batch from which a tagged copy comes.
* `Narrows`: what may be left of a batch.

Main results:

* Theorem `retrySubset_narrows`: what is delivered again is one of these.
* Theorem `contents_retrySubset`: of a batch whose copies were handed out, those parts are
  delivered again that have failed.
* Theorems `Narrows.mem`, `Narrows.ne_nil`, `Narrows.length_le`, `Narrows.covers`: nothing
  is made up, a batch does not become empty nor longer, and nothing is left out that has
  failed.
-/

namespace Redelivery

/-- The parts that carry an error. -/
def failedParts (parts : List (Part × Option String)) : Batch :=
  parts.filterMap fun (part, error) => error.map fun _ => part

/-- The parts that a failure names, as often as it does. -/
def PartialFailure.failedParts (failure : PartialFailure) : Batch :=
  Redelivery.failedParts failure.parts

/-- As many parts are named as errors are counted. -/
theorem PartialFailure.length_failedParts (failure : PartialFailure) :
    failure.failedParts.length = failure.errorCount := by
  rw [failedParts, Redelivery.failedParts, errorCount, List.length_filterMap_eq_countP]
  simp

/-- The parts that carry no error. -/
def passedParts (parts : List (Part × Option String)) : Batch :=
  parts.filterMap fun (part, error) => if error.isNone then some part else none

/-- The parts that a failure does not name. -/
def PartialFailure.passedParts (failure : PartialFailure) : Batch :=
  Redelivery.passedParts failure.parts

/-- Every part carries an error or none. -/
theorem passedParts_append_failedParts (parts : List (Part × Option String)) :
    (passedParts parts ++ failedParts parts).Perm (parts.map Prod.fst) := by
  induction parts with
  | nil => exact .refl _
  | cons entry rest ih =>
      rcases entry with ⟨part, _ | error⟩
      · exact ih.cons part
      · exact List.perm_middle.trans (ih.cons part)

/-- Every part of a batch is named by a failure, or it is not. -/
theorem PartialFailure.perm_batch (failure : PartialFailure) :
    (failure.passedParts ++ failure.failedParts).Perm failure.batch :=
  passedParts_append_failedParts failure.parts

/-- As many parts are not named as are left. -/
theorem PartialFailure.length_passedParts (failure : PartialFailure) :
    failure.passedParts.length + failure.errorCount = failure.batch.length := by
  rw [← failure.length_failedParts, ← List.length_append]
  exact failure.perm_batch.length_eq

/-- The part of a batch from which a copy comes, by the group that tagged it. -/
def Group.find (group : Group) (batch : Batch) (part : Part) : Option Part :=
  (group.indexOf part).bind fun index => batch[index]?

/-- A part that a group has just tagged is traced back to the one of which it is a copy. -/
theorem Group.content_find {group : Group} {batch : Batch} (size : group.size = batch.length)
    {part : Part} (h : part ∈ group.tag batch) :
    (group.find batch part).map Part.content = some part.content := by
  rcases List.mem_iff_getElem?.1 h with ⟨i, hi⟩
  rw [group.getElem?_tag] at hi
  rcases Option.map_eq_some_iff.1 hi with ⟨original, hfound, rfl⟩
  have hlt : i < group.size := size ▸ (List.getElem?_eq_some_iff.1 hfound).1
  simp [find, group.indexOf_tagged, hlt, hfound]

/-- Tagging changes no content. -/
theorem Group.contents_tag (group : Group) (batch : Batch) :
    (group.tag batch).map Part.content = batch.map Part.content := by
  refine List.ext_getElem? fun i => ?_
  rw [List.getElem?_map, group.getElem?_tag, Option.map_map, List.getElem?_map]
  rfl

/-- A walk that comes to its end has found all the parts that carry an error, one after
the other. -/
theorem walkFrom_collectFailed {kept : Batch} {group : Group}
    {parts : List (Part × Option String)} {index : Nat} {found result : Batch}
    (h : PartialFailure.walkFrom (collectFailed kept group) index parts (some found) =
      some result) :
    ∃ subset, result = found ++ subset ∧
      (failedParts parts).map (group.find kept) = subset.map some := by
  induction parts generalizing index found with
  | nil =>
      refine ⟨[], ?_, rfl⟩
      simpa using (Option.some.inj h).symm
  | cons entry rest ih =>
      rcases entry with ⟨part, error⟩
      cases error with
      | none => exact ih (by simpa [PartialFailure.walkFrom, collectFailed] using h)
      | some error =>
          cases hfind : group.find kept part with
          | none =>
              have hbind : ((group.indexOf part).bind fun index => kept[index]?) = none := hfind
              simp [PartialFailure.walkFrom, collectFailed, hbind] at h
          | some original =>
              have hbind : ((group.indexOf part).bind fun index => kept[index]?) =
                  some original := hfind
              obtain ⟨subset, rfl, htraced⟩ : ∃ subset, result = found ++ [original] ++ subset ∧
                  (failedParts rest).map (group.find kept) = subset.map some :=
                ih (by simpa [PartialFailure.walkFrom, collectFailed, hbind] using h)
              refine ⟨original :: subset, by simp, ?_⟩
              rw [List.map_cons, ← htraced, ← hfind]
              rfl

/-- What a failure may leave of a batch. -/
inductive Narrows (kept : Batch) (group : Group) (failure : Failure) : Batch → Prop
  /-- All is left. -/
  | whole : Narrows kept group failure kept
  /-- The parts are left that the failure names: some and not all, each traced back. -/
  | parts {partially : PartialFailure} {subset : Batch} (named : failure = .parts partially)
      (fewer : partially.errorCount < kept.length) (nonempty : subset ≠ [])
      (traced : partially.failedParts.map (group.find kept) = subset.map some) :
      Narrows kept group failure subset

/-- What is delivered again is what the failure leaves. -/
theorem retrySubset_narrows (kept : Batch) (group : Group) (failure : Failure) :
    Narrows kept group failure (retrySubset kept group failure) := by
  cases failure with
  | whole reason => exact .whole
  | parts partially =>
      by_cases hall : kept.length ≤ partially.errorCount
      · simp only [retrySubset, if_pos hall]
        exact .whole
      · simp only [retrySubset, if_neg hall]
        cases hwalk : partially.walk (collectFailed kept group) (some []) with
        | none => exact .whole
        | some subset =>
            cases subset with
            | nil => exact .whole
            | cons part rest =>
                rcases walkFrom_collectFailed hwalk with ⟨subset, hsubset, htraced⟩
                obtain rfl : part :: rest = subset := hsubset
                exact .parts rfl (Nat.lt_of_not_le hall) (by simp) htraced

/-- A walk comes to its end if every part that carries an error can be traced back. -/
theorem exists_walkFrom_collectFailed {kept : Batch} {group : Group}
    {parts : List (Part × Option String)}
    (traced : ∀ part ∈ failedParts parts, (group.find kept part).isSome) (index : Nat)
    (found : Batch) :
    ∃ result, PartialFailure.walkFrom (collectFailed kept group) index parts (some found) =
      some result := by
  induction parts generalizing index found with
  | nil => exact ⟨found, rfl⟩
  | cons entry rest ih =>
      rcases entry with ⟨part, error⟩
      cases error with
      | none => simpa [PartialFailure.walkFrom, collectFailed] using ih traced (index + 1) found
      | some error =>
          have hrest : ∀ part ∈ failedParts rest, (group.find kept part).isSome :=
            fun other hother => traced other (List.mem_cons_of_mem _ hother)
          rcases Option.isSome_iff_exists.1 (traced part List.mem_cons_self) with
            ⟨original, hfind⟩
          have hbind : ((group.indexOf part).bind fun index => kept[index]?) = some original :=
            hfind
          simpa [PartialFailure.walkFrom, collectFailed, hbind] using
            ih hrest (index + 1) (found ++ [original])

/-- Of a batch whose copies were handed out, those parts are delivered again that have failed,
if there are any. -/
theorem contents_retrySubset {kept : Batch} {group : Group} {failure : PartialFailure}
    (size : group.size = kept.length) (seen : failure.batch = group.tag kept)
    (any : failure.failedParts ≠ []) :
    ((retrySubset kept group (.parts failure)).map Part.content).Perm
      (failure.failedParts.map Part.content) := by
  by_cases hall : kept.length ≤ failure.errorCount
  · -- Nothing has passed, so what has failed is the batch.
    have hlength := failure.length_passedParts
    rw [seen, group.length_tag] at hlength
    have hnone : failure.passedParts = [] := List.length_eq_zero_iff.1 (by omega)
    have hperm := failure.perm_batch
    rw [hnone, List.nil_append, seen] at hperm
    rw [retrySubset, if_pos hall, ← group.contents_tag kept]
    exact hperm.symm.map _
  · have hcontent : ∀ part ∈ failure.failedParts,
        (group.find kept part).map Part.content = some part.content := by
      intro part hpart
      have hmem : part ∈ failure.batch :=
        failure.perm_batch.mem_iff.1 (List.mem_append_right _ hpart)
      exact Group.content_find size (seen ▸ hmem)
    have htraced : ∀ part ∈ failure.failedParts, (group.find kept part).isSome := by
      intro part hpart
      rw [← Option.isSome_map (f := Part.content), hcontent part hpart]
      rfl
    rcases exists_walkFrom_collectFailed htraced 0 [] with ⟨result, hwalk⟩
    rcases walkFrom_collectFailed hwalk with ⟨subset, hresult, hsubset⟩
    obtain rfl : result = subset := hresult
    have hcontents : failure.failedParts.map Part.content = result.map Part.content := by
      have hmapped := congrArg (List.map (Option.map Part.content)) hsubset
      rw [List.map_map, List.map_map] at hmapped
      refine (List.map_inj_right fun _ _ => Option.some.inj).1 ?_
      rw [List.map_map, List.map_map]
      exact (List.map_congr_left fun part hpart => (hcontent part hpart).symm).trans hmapped
    cases result with
    | nil =>
        rw [List.map_nil, List.map_eq_nil_iff] at hcontents
        exact absurd hcontents any
    | cons part rest =>
        simpa [retrySubset, if_neg hall, PartialFailure.walk, hwalk] using .of_eq hcontents.symm

namespace Narrows

variable {kept subset : Batch} {group : Group} {failure : Failure}

/-- Nothing is made up. -/
theorem mem (h : Narrows kept group failure subset) {part : Part} (hpart : part ∈ subset) :
    part ∈ kept := by
  cases h with
  | whole => exact hpart
  | parts named fewer nonempty traced =>
      have hmem := List.mem_map_of_mem (f := some) hpart
      rw [← traced] at hmem
      rcases List.mem_map.1 hmem with ⟨failed, -, hfind⟩
      rcases Option.bind_eq_some_iff.1 hfind with ⟨index, -, hindex⟩
      exact List.mem_of_getElem? hindex

/-- A batch does not become empty. -/
theorem ne_nil (h : Narrows kept group failure subset) (hkept : kept ≠ []) : subset ≠ [] := by
  cases h with
  | whole => exact hkept
  | parts named fewer nonempty traced => exact nonempty

/-- A batch does not become longer. -/
theorem length_le (h : Narrows kept group failure subset) : subset.length ≤ kept.length := by
  cases h with
  | whole => exact Nat.le_refl _
  | @parts partially subset named fewer nonempty traced =>
      have hlength := congrArg List.length traced
      rw [List.length_map, List.length_map, partially.length_failedParts] at hlength
      exact Nat.le_of_lt (hlength ▸ fewer)

/-- Either all is left, or all that the failure names, which is something. -/
theorem covers (h : Narrows kept group failure subset) : subset = kept ∨
    ∃ partially, failure = .parts partially ∧ partially.errorCount < kept.length ∧
      partially.failedParts ≠ [] ∧ ∀ failed ∈ partially.failedParts,
        ∃ index, ∃ part ∈ subset, group.indexOf failed = some index ∧ kept[index]? = some part := by
  cases h with
  | whole => exact .inl rfl
  | @parts partially subset named fewer nonempty traced =>
      refine .inr ⟨partially, named, fewer, ?_, ?_⟩
      · intro hnone
        rw [hnone, List.map_nil, eq_comm, List.map_eq_nil_iff] at traced
        exact nonempty traced
      · intro failed hfailed
        have hmem := List.mem_map_of_mem (f := group.find kept) hfailed
        rw [traced] at hmem
        rcases List.mem_map.1 hmem with ⟨part, hpart, hfind⟩
        rcases Option.bind_eq_some_iff.1 hfind.symm with ⟨index, hindex, hkept⟩
        exact ⟨index, part, hpart, hindex, hkept⟩

end Narrows

end Redelivery
