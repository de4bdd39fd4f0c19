import Mathlib.Data.List.Forall2
import Mathlib.Order.Lattice
import Redelivery.Backlog

/-!
# A backlog in use

A backlog is a queue with two ends and one armed scope.  Failures go to the back, what a read
gives up goes to the front, and reads take from the front.  Which scope a failure cancels is
not told by the entries: it is the one that was armed last, and a scope is armed only as a
read finds nothing to take.  So what was done is written down, and the scopes that were
cancelled are told from that.

Main definitions:

* `Backlog.Use`, `Backlog.Deed`: what can be asked of a backlog, and what comes of it.
* `Backlog.InUse`: a backlog, the scopes around it, and all that was done.
* `Backlog.Deque`: what a queue with two ends holds after some deeds.
* `Backlog.ArmedIn`, `Backlog.CancelledIn`: what deeds say of a scope.
* `Backlog.Refines`, `Backlog.ArmedDeque`: a backlog is a queue with two ends and one armed scope.

Main results:

* Theorems `Backlog.oldestFailure_eq_some`, `Backlog.toNat_maxAttempts`: what a look shows.
* Theorem `Backlog.Refines.after`: whatever is done, the backlog stays such a queue.
* Theorem `Backlog.armed_deque`: so it is after any uses of a new one.
-/

namespace Redelivery

/-! ## Points in time -/

namespace Timestamp

theorem le_iff {s t : Timestamp} :
    s ≤ t ↔ s.seconds < t.seconds ∨ (s.seconds = t.seconds ∧ s.nanos ≤ t.nanos) :=
  Iff.rfl

/-- Points in time come one after the other. -/
instance : LinearOrder Timestamp where
  le_refl t := .inr ⟨rfl, Nat.le_refl _⟩
  le_trans s t u hst htu := by
    rw [le_iff] at hst htu ⊢
    omega
  le_antisymm s t hst hts := by
    rw [le_iff] at hst hts
    cases s
    cases t
    simp only [mk.injEq] at hst hts ⊢
    omega
  le_total s t := by
    rw [le_iff, le_iff]
    omega
  toDecidableLE := inferInstance
  min_def _ _ := rfl

end Timestamp

namespace Backlog

variable {ρ : Type}

/-! ## A look at what is waiting -/

/-- The larger of two machine numbers is the larger number. -/
theorem toNat_max (m n : UInt32) : (max m n).toNat = max m.toNat n.toNat := by
  change (if m ≤ n then n else m).toNat = _
  split <;> rename_i h <;> rw [UInt32.le_iff_toNat_le] at h <;> omega

/-- The most attempts of some entries are the same among numbers. -/
theorem toNat_foldl_max (entries : List (Entry ρ)) (most : UInt32) :
    (entries.foldl (fun most entry => max most entry.attempts) most).toNat =
      (entries.map fun entry => entry.attempts.toNat).foldl max most.toNat := by
  induction entries generalizing most with
  | nil => rfl
  | cons entry rest ih => rw [List.foldl_cons, ih, toNat_max, List.map_cons, List.foldl_cons]

/-- What is shown of the attempts is the largest number of them, or zero. -/
theorem toNat_maxAttempts (backlog : Backlog ρ) :
    backlog.maxAttempts.toNat =
      (backlog.entries.map fun entry => entry.attempts.toNat).max?.getD 0 := by
  rw [maxAttempts, toNat_foldl_max, List.foldl_max]
  exact Nat.zero_max _

/-- No entry has more attempts than are shown. -/
theorem le_maxAttempts {backlog : Backlog ρ} {entry : Entry ρ} (h : entry ∈ backlog.entries) :
    entry.attempts.toNat ≤ backlog.maxAttempts.toNat := by
  rw [toNat_maxAttempts]
  exact List.le_max?_getD_of_mem (List.mem_map_of_mem h)

/-- Some entry has as many, if there is one. -/
theorem exists_attempts_eq {backlog : Backlog ρ} (h : backlog.entries ≠ []) :
    ∃ entry ∈ backlog.entries, entry.attempts.toNat = backlog.maxAttempts.toNat := by
  rw [toNat_maxAttempts]
  cases hmax : (backlog.entries.map fun entry => entry.attempts.toNat).max? with
  | none => exact absurd (List.map_eq_nil_iff.1 (List.max?_eq_none_iff.1 hmax)) h
  | some most => exact List.mem_map.1 (List.max?_eq_some_iff.1 hmax).1

theorem maxAttempts_of_nil {backlog : Backlog ρ} (h : backlog.entries = []) :
    backlog.maxAttempts = 0 := by
  rw [maxAttempts, h, List.foldl_nil]

/-- The failure that is shown is the earliest that an entry has. -/
theorem oldestFailure_eq_some {backlog : Backlog ρ} {time : Timestamp} :
    backlog.oldestFailure = some time ↔
      (∃ entry ∈ backlog.entries, entry.lastFailed = some time) ∧
        ∀ entry ∈ backlog.entries, ∀ t, entry.lastFailed = some t → time ≤ t := by
  rw [oldestFailure, List.min?_eq_some_iff]
  simp only [List.mem_filterMap]
  constructor
  · rintro ⟨hmem, hleast⟩
    exact ⟨hmem, fun entry hentry t ht => hleast t ⟨entry, hentry, ht⟩⟩
  · rintro ⟨hmem, hleast⟩
    exact ⟨hmem, fun t ⟨entry, hentry, ht⟩ => hleast entry hentry t ht⟩

/-- No failure is shown if no entry has failed. -/
theorem oldestFailure_eq_none {backlog : Backlog ρ} :
    backlog.oldestFailure = none ↔ ∀ entry ∈ backlog.entries, entry.lastFailed = none := by
  rw [oldestFailure, List.min?_eq_none_iff, List.filterMap_eq_nil_iff]

/-! ## Uses and deeds -/

/-- What can be asked of a backlog. -/
inductive Use (ρ : Type) where
  | append (entry : Entry ρ) (now : Timestamp)
  | putBack (entry : Entry ρ)
  | takeOrArm (scope : Scope)

/-- What comes of it. -/
inductive Deed (ρ : Type) where
  /-- An entry has come to the back. -/
  | appended (entry : Entry ρ)
  /-- An entry has come to the front. -/
  | putBack (entry : Entry ρ)
  /-- The first entry was taken. -/
  | took (entry : Entry ρ)
  /-- There was none, and a scope was armed. -/
  | armed (scope : Scope)

/-- A deed answers what was asked: an entry is appended with the time of its failure, put
back as it is, and taken only if there is one. -/
inductive Answers : Use ρ → Deed ρ → Prop
  | append (entry : Entry ρ) (now : Timestamp) :
      Answers (.append entry now) (.appended { entry with lastFailed := some now })
  | putBack (entry : Entry ρ) : Answers (.putBack entry) (.putBack entry)
  | took (scope : Scope) (entry : Entry ρ) : Answers (.takeOrArm scope) (.took entry)
  | armed (scope : Scope) : Answers (.takeOrArm scope) (.armed scope)

/-- A backlog with the scopes that it may cancel, and all that was done with it. -/
structure InUse (ρ : Type) where
  backlog : Backlog ρ
  scopes : Scopes
  deeds : List (Deed ρ)

/-- A new backlog with a scope of its own. -/
def unused (own : Scope) (scopes : Scopes) : InUse ρ := ⟨.empty own, scopes, []⟩

/-- The backlog after one more use. -/
def InUse.after (s : InUse ρ) : Use ρ → InUse ρ
  | .append entry now =>
      let (backlog, scopes) := s.backlog.append entry now s.scopes
      ⟨backlog, scopes, s.deeds ++ [.appended { entry with lastFailed := some now }]⟩
  | .putBack entry => ⟨s.backlog.putBack entry, s.scopes, s.deeds ++ [.putBack entry]⟩
  | .takeOrArm scope =>
      match s.backlog.takeOrArm scope with
      | (some entry, backlog) => ⟨backlog, s.scopes, s.deeds ++ [.took entry]⟩
      | (none, backlog) => ⟨backlog, s.scopes, s.deeds ++ [.armed scope]⟩

/-- A failure goes to the back with its time, and the armed scope is cancelled. -/
theorem InUse.after_append (s : InUse ρ) (entry : Entry ρ) (now : Timestamp) :
    s.after (.append entry now) =
      ⟨⟨s.backlog.entries ++ [{ entry with lastFailed := some now }], s.backlog.interrupt⟩,
        s.scopes.cancel s.backlog.interrupt,
        s.deeds ++ [.appended { entry with lastFailed := some now }]⟩ :=
  rfl

/-- What is given up goes to the front, and nothing is cancelled. -/
theorem InUse.after_putBack (s : InUse ρ) (entry : Entry ρ) :
    s.after (.putBack entry) =
      ⟨⟨entry :: s.backlog.entries, s.backlog.interrupt⟩, s.scopes,
        s.deeds ++ [.putBack entry]⟩ :=
  rfl

/-- The first entry is taken, and nothing is armed or cancelled. -/
theorem InUse.after_takeOrArm_of_cons {s : InUse ρ} {entry : Entry ρ} {rest : List (Entry ρ)}
    (head : s.backlog.entries = entry :: rest) (scope : Scope) :
    s.after (.takeOrArm scope) =
      ⟨⟨rest, s.backlog.interrupt⟩, s.scopes, s.deeds ++ [.took entry]⟩ := by
  simp only [after, takeOrArm, head]

/-- With nothing to take, the scope is armed. -/
theorem InUse.after_takeOrArm_of_nil {s : InUse ρ} (none : s.backlog.entries = [])
    (scope : Scope) :
    s.after (.takeOrArm scope) = ⟨⟨[], scope⟩, s.scopes, s.deeds ++ [.armed scope]⟩ := by
  simp only [after, takeOrArm, none]

/-- A new backlog after some uses. -/
def used (own : Scope) (scopes : Scopes) (uses : List (Use ρ)) : InUse ρ :=
  uses.foldl InUse.after (unused own scopes)

/-! ## The queue -/

/-- What a queue with two ends holds after some deeds. -/
inductive Deque : List (Deed ρ) → List (Entry ρ) → Prop
  | empty : Deque [] []
  | appended {deeds : List (Deed ρ)} {entries : List (Entry ρ)} (entry : Entry ρ) :
      Deque deeds entries → Deque (deeds ++ [.appended entry]) (entries ++ [entry])
  | putBack {deeds : List (Deed ρ)} {entries : List (Entry ρ)} (entry : Entry ρ) :
      Deque deeds entries → Deque (deeds ++ [.putBack entry]) (entry :: entries)
  | took {deeds : List (Deed ρ)} {entries : List (Entry ρ)} {entry : Entry ρ} :
      Deque deeds (entry :: entries) → Deque (deeds ++ [.took entry]) entries
  | armed {deeds : List (Deed ρ)} (scope : Scope) :
      Deque deeds [] → Deque (deeds ++ [.armed scope]) []

namespace Deed

/-- The entry that came into the queue, at either end. -/
def inserted : Deed ρ → List (Entry ρ)
  | .appended entry => [entry]
  | .putBack entry => [entry]
  | .took _ => []
  | .armed _ => []

/-- The entry that left the queue. -/
def removed : Deed ρ → List (Entry ρ)
  | .took entry => [entry]
  | .appended _ => []
  | .putBack _ => []
  | .armed _ => []

end Deed

/-- What came into a queue has left it, or is there. -/
theorem Deque.balance {deeds : List (Deed ρ)} {entries : List (Entry ρ)}
    (h : Deque deeds entries) :
    (deeds.flatMap Deed.inserted).Perm (deeds.flatMap Deed.removed ++ entries) := by
  induction h with
  | empty => exact .nil
  | appended entry _ ih =>
      simp only [List.flatMap_append, List.flatMap_singleton, Deed.inserted, Deed.removed,
        List.append_nil, ← List.append_assoc]
      exact ih.append_right [entry]
  | putBack entry _ ih =>
      simp only [List.flatMap_append, List.flatMap_singleton, Deed.inserted, Deed.removed,
        List.append_nil]
      exact (List.perm_append_singleton ..).trans ((ih.cons entry).trans List.perm_middle.symm)
  | took _ ih =>
      simp only [List.flatMap_append, List.flatMap_singleton, Deed.inserted, Deed.removed,
        List.append_nil, List.append_assoc, List.singleton_append]
      exact ih
  | armed scope _ ih =>
      simp only [List.flatMap_append, List.flatMap_singleton, Deed.inserted, Deed.removed,
        List.append_nil]
      exact ih.trans (.of_eq (List.append_nil _))

/-! ## The armed scope -/

/-- The scope with a number was armed, and none with another number since. -/
def ArmedIn (deeds : List (Deed ρ)) (id : Nat) : Prop :=
  ∃ before scope middle, deeds = before ++ .armed scope :: middle ∧ scope.id = id ∧
    ∀ other, .armed other ∈ middle → other.id = id

/-- A failure was appended while the scope with a number was armed. -/
def CancelledIn (deeds : List (Deed ρ)) (id : Nat) : Prop :=
  ∃ before entry after, deeds = before ++ .appended entry :: after ∧ ArmedIn before id

/-- A list with one more at its end is split there, or before. -/
theorem append_singleton_eq_append_cons {α : Type} {l before after : List α} {x y : α} :
    l ++ [x] = before ++ y :: after ↔
      (l = before ∧ x = y ∧ after = []) ∨
        ∃ middle, after = middle ++ [x] ∧ l = before ++ y :: middle := by
  rcases List.eq_nil_or_concat after with rfl | ⟨middle, z, rfl⟩
  · simp
  · have hafter : before ++ y :: (middle ++ [z]) = (before ++ y :: middle) ++ [z] := by simp
    rw [List.concat_eq_append, hafter]
    constructor
    · intro h
      rcases List.append_inj' h rfl with ⟨rfl, hlast⟩
      exact .inr ⟨middle, by rw [hlast], rfl⟩
    · rintro (⟨-, -, hnil⟩ | ⟨between, hmiddle, rfl⟩)
      · simp at hnil
      · rcases List.append_inj' hmiddle rfl with ⟨rfl, hlast⟩
        rw [hlast]

/-- A scope that is armed is the armed one. -/
theorem armedIn_append_armed {deeds : List (Deed ρ)} {scope : Scope} {id : Nat} :
    ArmedIn (deeds ++ [.armed scope]) id ↔ scope.id = id := by
  constructor
  · rintro ⟨before, armed, middle, heq, hid, hmiddle⟩
    rcases append_singleton_eq_append_cons.1 heq with ⟨-, hlast, -⟩ | ⟨middle, rfl, -⟩
    · cases hlast
      exact hid
    · exact hmiddle scope (by simp)
  · rintro rfl
    exact ⟨deeds, scope, [], rfl, rfl, by simp⟩

/-- Nothing else changes which scope is the armed one. -/
theorem armedIn_append_of_ne {deeds : List (Deed ρ)} {deed : Deed ρ}
    (other : ∀ scope, deed ≠ .armed scope) {id : Nat} :
    ArmedIn (deeds ++ [deed]) id ↔ ArmedIn deeds id := by
  constructor
  · rintro ⟨before, armed, middle, heq, hid, hmiddle⟩
    rcases append_singleton_eq_append_cons.1 heq with ⟨-, hlast, -⟩ | ⟨middle, rfl, rfl⟩
    · exact absurd hlast (other armed)
    · exact ⟨before, armed, middle, rfl, hid, fun scope h => hmiddle scope (by simp [h])⟩
  · rintro ⟨before, armed, middle, rfl, hid, hmiddle⟩
    refine ⟨before, armed, middle ++ [deed], by simp, hid, ?_⟩
    intro scope hscope
    rcases List.mem_append.1 hscope with hmem | hlast
    · exact hmiddle scope hmem
    · exact absurd (List.mem_singleton.1 hlast).symm (other scope)

/-- A failure cancels the armed scope. -/
theorem cancelledIn_append_appended {deeds : List (Deed ρ)} {entry : Entry ρ} {id : Nat} :
    CancelledIn (deeds ++ [.appended entry]) id ↔ CancelledIn deeds id ∨ ArmedIn deeds id := by
  constructor
  · rintro ⟨before, entry, after, heq, harmed⟩
    rcases append_singleton_eq_append_cons.1 heq with ⟨rfl, -, -⟩ | ⟨middle, -, rfl⟩
    · exact .inr harmed
    · exact .inl ⟨before, entry, middle, rfl, harmed⟩
  · rintro (⟨before, first, after, rfl, harmed⟩ | harmed)
    · exact ⟨before, first, after ++ [.appended entry], by simp, harmed⟩
    · exact ⟨deeds, entry, [], rfl, harmed⟩

/-- Nothing else cancels a scope. -/
theorem cancelledIn_append_of_ne {deeds : List (Deed ρ)} {deed : Deed ρ}
    (other : ∀ entry, deed ≠ .appended entry) {id : Nat} :
    CancelledIn (deeds ++ [deed]) id ↔ CancelledIn deeds id := by
  constructor
  · rintro ⟨before, entry, after, heq, harmed⟩
    rcases append_singleton_eq_append_cons.1 heq with ⟨-, hlast, -⟩ | ⟨middle, -, rfl⟩
    · exact absurd hlast (other entry)
    · exact ⟨before, entry, middle, rfl, harmed⟩
  · rintro ⟨before, entry, after, rfl, harmed⟩
    exact ⟨before, entry, after ++ [deed], by simp, harmed⟩

/-- A scope that was armed before anything else is the armed one only until another is. -/
theorem armedIn_cons_armed {own : Scope} {id : Nat} (other : id ≠ own.id)
    {deeds : List (Deed ρ)} : ArmedIn (.armed own :: deeds) id ↔ ArmedIn deeds id := by
  constructor
  · rintro ⟨before, armed, middle, heq, hid, hmiddle⟩
    cases before with
    | nil =>
        cases (List.cons.inj heq).1
        exact absurd hid.symm other
    | cons first before => exact ⟨before, armed, middle, (List.cons.inj heq).2, hid, hmiddle⟩
  · rintro ⟨before, armed, middle, rfl, hid, hmiddle⟩
    exact ⟨.armed own :: before, armed, middle, rfl, hid, hmiddle⟩

/-- It makes no difference to the others. -/
theorem cancelledIn_cons_armed {own : Scope} {id : Nat} (other : id ≠ own.id)
    {deeds : List (Deed ρ)} : CancelledIn (.armed own :: deeds) id ↔ CancelledIn deeds id := by
  constructor
  · rintro ⟨before, entry, after, heq, harmed⟩
    cases before with
    | nil => cases (List.cons.inj heq).1
    | cons first before =>
        rcases List.cons.inj heq with ⟨rfl, hdeeds⟩
        exact ⟨before, entry, after, hdeeds, (armedIn_cons_armed other).1 harmed⟩
  · rintro ⟨before, entry, after, rfl, harmed⟩
    exact ⟨.armed own :: before, entry, after, rfl, (armedIn_cons_armed other).2 harmed⟩

/-! ## A new backlog in use -/

/-- After some uses a new backlog is a queue with two ends and one armed scope.  The scope
that it began with was armed before anything was done. -/
structure Refines (own : Scope) (scopes : Scopes) (uses : List (Use ρ)) (s : InUse ρ) : Prop where
  answers : List.Forall₂ Answers uses s.deeds
  deque : Deque s.deeds s.backlog.entries
  size_eq : s.scopes.flags.size = scopes.flags.size
  armed : ∀ id, s.backlog.interrupt.id = id ↔ ArmedIn (.armed own :: s.deeds) id
  cancelled : ∀ id < scopes.flags.size,
    (s.scopes.flag id = true ↔ scopes.flag id = true ∨ CancelledIn (.armed own :: s.deeds) id)

variable {own : Scope} {scopes : Scopes} {uses : List (Use ρ)} {s : InUse ρ}

theorem refines_unused (own : Scope) (scopes : Scopes) :
    Refines own scopes [] (unused own scopes : InUse ρ) := by
  refine ⟨.nil, .empty, rfl, ?_, ?_⟩
  · intro id
    have harmed : ArmedIn ([] ++ [(.armed own : Deed ρ)]) id ↔ own.id = id := armedIn_append_armed
    exact harmed.symm
  · intro id hlt
    have hnone : ¬CancelledIn (.armed own :: (unused own scopes : InUse ρ).deeds) id := by
      rintro ⟨before, entry, after, heq, -⟩
      cases before with
      | nil => cases (List.cons.inj heq).1
      | cons first before => simp [unused] at heq
    simp only [hnone, or_false]
    rfl

/-- What is neither a failure nor an arming changes neither what is armed nor what is
cancelled. -/
theorem Refines.still (h : Refines own scopes uses s) {use : Use ρ} {deed : Deed ρ}
    {entries : List (Entry ρ)} (answers : Answers use deed)
    (deque : Deque (s.deeds ++ [deed]) entries) (notArmed : ∀ scope, deed ≠ .armed scope)
    (notAppended : ∀ entry, deed ≠ .appended entry) :
    Refines own scopes (uses ++ [use])
      ⟨⟨entries, s.backlog.interrupt⟩, s.scopes, s.deeds ++ [deed]⟩ := by
  refine ⟨List.rel_append h.answers (.cons answers .nil), deque, h.size_eq, ?_, ?_⟩
  · intro id
    rw [← List.cons_append, armedIn_append_of_ne notArmed]
    exact h.armed id
  · intro id hlt
    rw [← List.cons_append, cancelledIn_append_of_ne notAppended]
    exact h.cancelled id hlt

/-- A failure cancels the armed scope, if it exists, and no other. -/
theorem Refines.append (h : Refines own scopes uses s) (entry : Entry ρ) (now : Timestamp) :
    Refines own scopes (uses ++ [.append entry now]) (s.after (.append entry now)) := by
  rw [InUse.after_append]
  refine ⟨List.rel_append h.answers (.cons (.append entry now) .nil), h.deque.appended _,
    ?_, ?_, ?_⟩
  · rw [Scopes.size_cancel, h.size_eq]
  · intro id
    rw [← List.cons_append, armedIn_append_of_ne (by simp)]
    exact h.armed id
  · intro id hlt
    have hexists : id < s.scopes.flags.size := h.size_eq ▸ hlt
    have hflag : (s.scopes.cancel s.backlog.interrupt).flag id = true ↔
        s.scopes.flag id = true ∨ s.backlog.interrupt.id = id := by
      rw [Scopes.flag_cancel, Bool.or_eq_true, decide_eq_true_iff]
      exact or_congr_right ⟨fun hit => hit.1.symm, fun hit => ⟨hit.symm, hexists⟩⟩
    rw [hflag, h.cancelled id hlt, h.armed id, or_assoc, ← List.cons_append,
      cancelledIn_append_appended]

/-- A scope that is armed takes the place of the one before, which is cancelled no more. -/
theorem Refines.arm (h : Refines own scopes uses s) (none : s.backlog.entries = [])
    (scope : Scope) :
    Refines own scopes (uses ++ [.takeOrArm scope]) (s.after (.takeOrArm scope)) := by
  have hdeque := h.deque
  rw [none] at hdeque
  rw [InUse.after_takeOrArm_of_nil none]
  refine ⟨List.rel_append h.answers (.cons (.armed scope) .nil), hdeque.armed scope, h.size_eq,
    ?_, ?_⟩
  · intro id
    rw [← List.cons_append, armedIn_append_armed]
  · intro id hlt
    rw [← List.cons_append, cancelledIn_append_of_ne (by simp)]
    exact h.cancelled id hlt

/-- Whatever is done next, it stays such a queue. -/
theorem Refines.after (h : Refines own scopes uses s) (use : Use ρ) :
    Refines own scopes (uses ++ [use]) (s.after use) := by
  cases use with
  | append entry now => exact h.append entry now
  | putBack entry =>
      rw [InUse.after_putBack]
      exact h.still (.putBack entry) (h.deque.putBack entry) (by simp) (by simp)
  | takeOrArm scope =>
      cases hentries : s.backlog.entries with
      | nil => exact h.arm hentries scope
      | cons entry rest =>
          have hdeque := h.deque
          rw [hentries] at hdeque
          rw [InUse.after_takeOrArm_of_cons hentries]
          exact h.still (.took scope entry) hdeque.took (by simp) (by simp)

/-- And so it does whatever is done after that. -/
theorem Refines.foldl (h : Refines own scopes uses s) (more : List (Use ρ)) :
    Refines own scopes (uses ++ more) (more.foldl InUse.after s) := by
  induction more generalizing uses s with
  | nil => simpa using h
  | cons use more ih => simpa using ih (h.after use)

/-- After any uses a new backlog is such a queue. -/
theorem refines_used (own : Scope) (scopes : Scopes) (uses : List (Use ρ)) :
    Refines own scopes uses (used own scopes uses) :=
  (refines_unused own scopes).foldl uses

/-- A backlog in use is a queue with two ends and one armed scope.

* A scope that is not its own is cancelled if and only if it was before, or a failure was
  appended after it was armed and before another was.
* What came in has left or is there, and neither what is put back nor what is taken cancels
  anything or changes which scope is armed.
* A look shows how many entries there are, the largest number of their attempts, or zero, and
  the earliest of their failures. -/
structure ArmedDeque (own : Scope) (scopes : Scopes) (uses : List (Use ρ)) (s : InUse ρ) : Prop
    extends Refines own scopes uses s where
  balance : (s.deeds.flatMap Deed.inserted).Perm
    (s.deeds.flatMap Deed.removed ++ s.backlog.entries)
  passed : ∀ id < scopes.flags.size, id ≠ own.id →
    (s.scopes.flag id = true ↔ scopes.flag id = true ∨ CancelledIn s.deeds id)
  putsBack : ∀ entry, (s.after (.putBack entry)).scopes = s.scopes ∧
    (s.after (.putBack entry)).backlog.interrupt = s.backlog.interrupt
  takes : s.backlog.entries ≠ [] → ∀ scope, (s.after (.takeOrArm scope)).scopes = s.scopes ∧
    (s.after (.takeOrArm scope)).backlog.interrupt = s.backlog.interrupt
  size : s.backlog.size = s.backlog.entries.length
  most : ∀ entry ∈ s.backlog.entries, entry.attempts ≤ s.backlog.maxAttempts
  attained : s.backlog.entries ≠ [] →
    ∃ entry ∈ s.backlog.entries, entry.attempts = s.backlog.maxAttempts
  none : s.backlog.entries = [] → s.backlog.maxAttempts = 0
  oldest : ∀ time, s.backlog.oldestFailure = some time ↔
    (∃ entry ∈ s.backlog.entries, entry.lastFailed = some time) ∧
      ∀ entry ∈ s.backlog.entries, ∀ t, entry.lastFailed = some t → time ≤ t
  unfailed : s.backlog.oldestFailure = .none ↔
    ∀ entry ∈ s.backlog.entries, entry.lastFailed = .none

/-- Any uses of a new backlog are those of a queue with two ends and one armed scope. -/
theorem armed_deque (own : Scope) (scopes : Scopes) (uses : List (Use ρ)) :
    ArmedDeque own scopes uses (used own scopes uses) where
  toRefines := refines_used own scopes uses
  balance := (refines_used own scopes uses).deque.balance
  passed id present other := by
    rw [(refines_used own scopes uses).cancelled id present, cancelledIn_cons_armed other]
  putsBack _ := ⟨rfl, rfl⟩
  takes present scope := by
    rcases List.exists_cons_of_ne_nil present with ⟨entry, rest, head⟩
    rw [InUse.after_takeOrArm_of_cons head]
    exact ⟨rfl, rfl⟩
  size := rfl
  most _ hentry := UInt32.le_iff_toNat_le.2 (le_maxAttempts hentry)
  attained present := by
    rcases exists_attempts_eq present with ⟨entry, hentry, heq⟩
    exact ⟨entry, hentry, UInt32.toNat.inj heq⟩
  none := maxAttempts_of_nil
  oldest _ := oldestFailure_eq_some
  unfailed := oldestFailure_eq_none

/-- The first scope is armed; the second is passed while there is an entry to take. -/
example (entry : Entry ρ) :
    (used ⟨0, []⟩ ⟨#[false, false, false]⟩ [.takeOrArm ⟨1, []⟩, .putBack entry,
      .takeOrArm ⟨2, []⟩, .append entry .epoch]).scopes.flags = #[false, true, false] :=
  rfl

end Backlog

end Redelivery
