import Mathlib.Data.Finset.Card
import Mathlib.Data.List.Nodup
import Redelivery.Failure

/-!
# Errors at places

A failure of some parts is built by calls that mark a part as failed, in any order, as often
as one likes, and also at indexes outside the batch.  What comes of them is the last error that
was given for each index of the batch: the errors are counted that way, and a walk over the
parts shows each part with its own.

Main definitions:

* `PartialFailure.mark`, `PartialFailure.lastError`: calls, and the last error for an index.
* `PartialFailure.Visit`, `PartialFailure.logged`: the calls of a visitor, and a log of them.
* `PartialFailure.GoesOn`: a visitor that does not break.
* `PartialFailure.Tells`: what is told of a batch by count and by walk.

Main results:

* Theorem `PartialFailure.mark_ofBatch`: what calls make of a batch.
* Theorem `PartialFailure.tells_last_errors`: count and walk tell the last errors, and nothing
  else depends on the calls.
-/

namespace Redelivery
namespace PartialFailure

/-! ## Calls -/

/-- Marks parts as failed, one call after the other. -/
def mark (f : PartialFailure) (calls : List (Nat × String)) : PartialFailure :=
  calls.foldl (fun f call => f.failed call.1 call.2) f

/-- The error that was given last for an index. -/
def lastError (calls : List (Nat × String)) (index : Nat) : Option String :=
  calls.reverse.lookup index

theorem lastError_concat (calls : List (Nat × String)) (call : Nat × String) (index : Nat) :
    lastError (calls ++ [call]) index =
      if index = call.1 then some call.2 else lastError calls index := by
  rw [lastError, List.reverse_concat, List.lookup_cons]
  by_cases h : index = call.1
  · simp [h]
  · simp [beq_false_of_ne h, h, lastError]

/-- There is an error for the indexes that were mentioned. -/
theorem isSome_lastError (calls : List (Nat × String)) (index : Nat) :
    (lastError calls index).isSome ↔ index ∈ calls.map Prod.fst := by
  induction calls using List.reverseRecOn with
  | nil => simp [lastError]
  | append_singleton calls call ih =>
      rw [lastError_concat, List.map_append, List.mem_append, ← ih, List.map_singleton,
        List.mem_singleton]
      by_cases h : index = call.1
      · simp [h]
      · simp [h]

/-- The calls give each part of the batch the last error for its index. -/
theorem mark_ofBatch (batch : Batch) (cause : String) (calls : List (Nat × String)) :
    (ofBatch batch cause).mark calls =
      ⟨cause, batch.mapIdx fun index part => (part, lastError calls index)⟩ := by
  induction calls using List.reverseRecOn with
  | nil =>
      refine congrArg (PartialFailure.mk cause) (List.ext_getElem? fun index => ?_)
      simp [lastError]
  | append_singleton calls call ih =>
      have hstep : (ofBatch batch cause).mark (calls ++ [call]) =
          ((ofBatch batch cause).mark calls).failed call.1 call.2 := by
        rw [mark, List.foldl_append]
        rfl
      rw [hstep, ih]
      refine congrArg (PartialFailure.mk cause) (List.ext_getElem? fun index => ?_)
      rw [List.getElem?_modify, List.getElem?_mapIdx, List.getElem?_mapIdx]
      simp only [lastError_concat]
      by_cases h : index = call.1
      · simp [h, Function.comp_def]
      · simp [h, Ne.symm h]

/-- As many errors are counted as different indexes of the batch were mentioned. -/
theorem errorCount_mark (batch : Batch) (cause : String) (calls : List (Nat × String)) :
    ((ofBatch batch cause).mark calls).errorCount =
      {index ∈ (calls.map Prod.fst).toFinset | index < batch.length}.card := by
  have herrors : (batch.mapIdx fun index part => (part, lastError calls index)).map Prod.snd =
      (List.range batch.length).map (lastError calls) :=
    List.ext_getElem (by simp) (by simp)
  have hplaces : ((List.range batch.length).filter fun index =>
      (lastError calls index).isSome).toFinset =
        {index ∈ (calls.map Prod.fst).toFinset | index < batch.length} := by
    ext index
    simp only [List.mem_toFinset, List.mem_filter, List.mem_range, Finset.mem_filter]
    rw [isSome_lastError, and_comm]
  calc ((ofBatch batch cause).mark calls).errorCount
      = ((List.range batch.length).map (lastError calls)).countP Option.isSome := by
        rw [mark_ofBatch, errorCount, ← herrors, List.countP_map]
        rfl
    _ = ((List.range batch.length).filter fun index => (lastError calls index).isSome).length := by
        rw [List.countP_map, List.countP_eq_length_filter]
        rfl
    _ = _ := by rw [← hplaces, List.toFinset_card_of_nodup (List.nodup_range.filter _)]

/-! ## Walks -/

/-- What is called for each part, with its place and its error, until it answers `done`. -/
abbrev Visitor (σ : Type) := Nat → Part → Option String → σ → ForInStep σ

/-- A call of a visitor. -/
structure Visit where
  index : Nat
  part : Part
  error : Option String
  deriving DecidableEq

variable {σ : Type} {visit : Visitor σ}

/-- The visitor with a log of its calls. -/
def logged (visit : Visitor σ) : Visitor (σ × List Visit) := fun index part error (s, log) =>
  match visit index part error s with
  | .done s => .done (s, log ++ [⟨index, part, error⟩])
  | .yield s => .yield (s, log ++ [⟨index, part, error⟩])

/-- The visitor does not break at any of these calls, and gets from one state to another. -/
inductive GoesOn (visit : Visitor σ) : List Visit → σ → σ → Prop
  | nil {s : σ} : GoesOn visit [] s s
  | cons {call : Visit} {calls : List Visit} {s t u : σ}
      (yields : visit call.index call.part call.error s = .yield t)
      (rest : GoesOn visit calls t u) : GoesOn visit (call :: calls) s u

/-- The calls for entries of which the first is at place `index`. -/
def visitsFrom (index : Nat) (entries : List (Part × Option String)) : List Visit :=
  entries.mapIdx fun k entry => ⟨index + k, entry.1, entry.2⟩

theorem visitsFrom_cons (index : Nat) (entry : Part × Option String)
    (entries : List (Part × Option String)) :
    visitsFrom index (entry :: entries) =
      ⟨index, entry.1, entry.2⟩ :: visitsFrom (index + 1) entries := by
  simp [visitsFrom, List.mapIdx_cons, Nat.add_assoc, Nat.add_comm 1]

/-- To keep a log changes nothing. -/
theorem walkFrom_logged (index : Nat) (entries : List (Part × Option String)) (s : σ)
    (log : List Visit) :
    (walkFrom (logged visit) index entries (s, log)).1 = walkFrom visit index entries s := by
  induction entries generalizing index s log with
  | nil => rfl
  | cons entry entries ih =>
      rw [walkFrom, walkFrom, logged]
      cases visit index entry.1 entry.2 s with
      | done t => rfl
      | yield t => exact ih (index + 1) t _

/-- A visitor that goes on is called for all entries. -/
theorem walkFrom_of_goesOn {index : Nat} {entries : List (Part × Option String)} {s t : σ}
    (h : GoesOn visit (visitsFrom index entries) s t) (log : List Visit) :
    walkFrom (logged visit) index entries (s, log) = (t, log ++ visitsFrom index entries) := by
  induction entries generalizing index s log with
  | nil =>
      cases h
      rw [visitsFrom, List.mapIdx_nil, List.append_nil]
      rfl
  | cons entry entries ih =>
      rw [visitsFrom_cons] at h ⊢
      cases h with
      | cons yields rest =>
          have hrest := ih rest (log ++ [⟨index, entry.1, entry.2⟩])
          rw [List.append_assoc] at hrest
          rw [walkFrom, logged, yields]
          exact hrest

/-- One that breaks is called for no entry after that. -/
theorem walkFrom_of_breaks {index b : Nat} {entries : List (Part × Option String)} {s t u : σ}
    {call : Visit} (h : GoesOn visit ((visitsFrom index entries).take b) s t)
    (found : (visitsFrom index entries)[b]? = some call)
    (breaks : visit call.index call.part call.error t = .done u) (log : List Visit) :
    walkFrom (logged visit) index entries (s, log) =
      (u, log ++ (visitsFrom index entries).take (b + 1)) := by
  induction entries generalizing index s b log with
  | nil => cases found
  | cons entry entries ih =>
      rw [visitsFrom_cons] at h found ⊢
      cases b with
      | zero =>
          cases h
          cases found
          rw [walkFrom, logged, breaks]
          rfl
      | succ b =>
          cases h with
          | cons yields rest =>
              have hrest := ih rest found (log ++ [⟨index, entry.1, entry.2⟩])
              rw [List.append_assoc] at hrest
              rw [walkFrom, logged, yields, List.take_succ_cons]
              exact hrest

/-! ## What is told of a batch -/

/-- The calls of a visitor that sees every part of the batch, each with the last error for its
index. -/
def visits (batch : Batch) (calls : List (Nat × String)) : List Visit :=
  batch.mapIdx fun index part => ⟨index, part, lastError calls index⟩

/-- What a failure tells of a batch whose parts were marked by some calls. -/
structure Tells (batch : Batch) (calls : List (Nat × String)) (f : PartialFailure) : Prop where
  /-- An error is counted for each index of the batch that was mentioned. -/
  count : f.errorCount = {index ∈ (calls.map Prod.fst).toFinset | index < batch.length}.card
  count_le : f.errorCount ≤ batch.length
  /-- The parts whose index was mentioned have an error. -/
  error : ∀ index, (lastError calls index).isSome ↔ index ∈ calls.map Prod.fst
  /-- A visitor that never breaks is called for all parts. -/
  whole : ∀ {σ : Type} {visit : Visitor σ} {s t : σ}, GoesOn visit (visits batch calls) s t →
    f.walk visit s = t ∧ f.walk (logged visit) (s, []) = (t, visits batch calls)
  /-- A visitor that first breaks at a place is called for the parts up to that place. -/
  upTo : ∀ {σ : Type} {visit : Visitor σ} {s t u : σ} {b : Nat} {call : Visit},
    GoesOn visit ((visits batch calls).take b) s t → (visits batch calls)[b]? = some call →
      visit call.index call.part call.error t = .done u →
        f.walk visit s = u ∧ f.walk (logged visit) (s, []) = (u, (visits batch calls).take (b + 1))

theorem visitsFrom_mark (batch : Batch) (cause : String) (calls : List (Nat × String)) :
    visitsFrom 0 ((ofBatch batch cause).mark calls).parts = visits batch calls := by
  rw [mark_ofBatch]
  refine List.ext_getElem? fun index => ?_
  simp [visitsFrom, visits, Function.comp_def]

/-- The log of a walk shows what the visitor has come to. -/
theorem walk_of_logged {f : PartialFailure} {s t : σ} {log : List Visit}
    (h : f.walk (logged visit) (s, []) = (t, log)) : f.walk visit s = t := by
  rw [walk, ← walkFrom_logged 0 f.parts s [], ← walk, h]

theorem tells_mark (batch : Batch) (cause : String) (calls : List (Nat × String)) :
    Tells batch calls ((ofBatch batch cause).mark calls) := by
  have hvisits := visitsFrom_mark batch cause calls
  refine ⟨errorCount_mark batch cause calls, ?_, isSome_lastError calls, ?_, ?_⟩
  · rw [mark_ofBatch, ← List.length_mapIdx (l := batch)]
    exact List.countP_le_length
  · intro σ visit s t h
    rw [← hvisits] at h ⊢
    have hwalk := walkFrom_of_goesOn h []
    exact ⟨walk_of_logged hwalk, hwalk⟩
  · intro σ visit s t u b call h found breaks
    rw [← hvisits] at h found ⊢
    have hwalk := walkFrom_of_breaks h found breaks []
    exact ⟨walk_of_logged hwalk, hwalk⟩

/-- Calls make the same of a batch if and only if they give the same last errors for its
indexes. -/
theorem mark_eq_mark_iff (batch : Batch) (cause : String) (calls calls' : List (Nat × String)) :
    (ofBatch batch cause).mark calls = (ofBatch batch cause).mark calls' ↔
      ∀ index < batch.length, lastError calls index = lastError calls' index := by
  rw [mark_ofBatch, mark_ofBatch, PartialFailure.mk.injEq, and_iff_right rfl]
  constructor
  · intro h index hindex
    have hentry := congrArg (fun entries => (entries[index]?).map Prod.snd) h
    simpa [hindex] using hentry
  · intro h
    refine List.ext_getElem (by simp) fun index hindex _ => ?_
    rw [List.length_mapIdx] at hindex
    simp [h index hindex]

/-- The last errors do not change when two calls for different indexes are exchanged. -/
theorem lastError_swap {call call' : Nat × String} (h : call.1 ≠ call'.1)
    (before after : List (Nat × String)) (index : Nat) :
    lastError (before ++ call :: call' :: after) index =
      lastError (before ++ call' :: call :: after) index := by
  induction after using List.reverseRecOn with
  | nil =>
      have hcalls : ∀ x y : Nat × String, before ++ [x, y] = before ++ [x] ++ [y] := by simp
      rw [hcalls, hcalls]
      simp only [lastError_concat]
      by_cases hfirst : index = call.1
      · rw [if_neg (fun heq => h (hfirst ▸ heq)), if_pos hfirst, if_pos hfirst]
      · rw [if_neg hfirst, if_neg hfirst]
  | append_singleton after last ih =>
      rw [← List.cons_append, ← List.cons_append, ← List.append_assoc, ← List.cons_append,
        ← List.cons_append, ← List.append_assoc, lastError_concat, lastError_concat, ih]

/-- Count and walk tell the last error for each index of the batch, whatever the calls were.
What comes of two sequences of calls is the same if and only if these errors are, and so calls
for different indexes can be exchanged. -/
theorem tells_last_errors (batch : Batch) (cause : String) (calls : List (Nat × String)) :
    Tells batch calls ((ofBatch batch cause).mark calls) ∧
      (∀ calls', (ofBatch batch cause).mark calls = (ofBatch batch cause).mark calls' ↔
        ∀ index < batch.length, lastError calls index = lastError calls' index) ∧
      (∀ before call call' after, calls = before ++ call :: call' :: after → call.1 ≠ call'.1 →
        (ofBatch batch cause).mark calls =
          (ofBatch batch cause).mark (before ++ call' :: call :: after)) := by
  refine ⟨tells_mark batch cause calls, mark_eq_mark_iff batch cause calls, ?_⟩
  rintro before call call' after rfl hne
  exact (mark_eq_mark_iff batch cause _ _).2 fun index _ => lastError_swap hne before after index

/-! ## A batch of three parts -/

namespace Tells.Tour

/-- Three parts. -/
def batch : Batch := (Mint.empty.batch [[97], [98], [99]]).1

/-- One part is mentioned twice, one once, and there is an index outside the batch. -/
def calls : List (Nat × String) := [(1, "too large"), (7, "lost"), (2, "too small"), (1, "empty")]

/-- Looks for an error and breaks as soon as there is one. -/
def firstError : Visitor (Option String) := fun _ _ error s =>
  match error with
  | none => .yield s
  | some reason => .done (some reason)

/-- Two errors are counted, and the walk that looks for one is over at the second part. -/
theorem tells_last_errors_firstError :
    ((ofBatch batch "full").mark calls).errorCount = 2 ∧
      GoesOn firstError ((visits batch calls).take 1) none none ∧
      ((ofBatch batch "full").mark calls).walk firstError none = some "empty" ∧
      ((ofBatch batch "full").mark calls).walk (logged firstError) (none, []) =
        (some "empty", (visits batch calls).take 2) := by
  have htells := (tells_last_errors batch "full" calls).1
  have hgoesOn : GoesOn firstError ((visits batch calls).take 1) none none := .cons rfl .nil
  have hwalk := htells.upTo (b := 1) hgoesOn rfl rfl
  exact ⟨htells.count.trans (by decide), hgoesOn, hwalk.1, hwalk.2⟩

end Tells.Tour

end PartialFailure
end Redelivery
