import Redelivery.Proofs.Session.Reach
import Redelivery.Proofs.Source.Memory

/-!
# Who is left waiting in a source in memory

A push and a closing wake one reader each, or leave one permit.  That is enough for a batch
that is pushed, as long as no two reads find nothing before either of them waits.  It is not
enough for the end, which concerns all who wait: of those who wait as the source is closed,
one is woken, and the others are left.

Main definitions:

* `Memory.Enrolled`: who waits and who was woken is known to the source.
* `Memory.Supplied`: for each batch there is a read that was woken or is about to look.
* `Memory.stranded`: the reads that nobody will wake once the source is closed.
* `Memory.Does`: what a step does to the reads and to the source.
* `Memory.FewLeft`: who is left waiting when no read can take a step.

Main results:

* Theorems `Memory.Does.enrolled`, `Memory.Does.supplied`, `Memory.Does.stranded_le`: what
  every step keeps.
* Theorem `Memory.few_left`: who is left waiting in any session.
* Theorem `Memory.left_behind`: a read is left waiting at a source that was closed, and one at
  a source that holds a batch.
-/

namespace Redelivery

/-- The read that is in progress after a turn. -/
def Progress.reads {θ ρ : Type} : Progress θ ρ → List θ
  | .going read => [read]
  | .ended _ => []

namespace Memory

/-! ## Who waits -/

namespace Reading

/-- The number under which a read waits. -/
def waiters : Reading → List Nat
  | .waiting _ waiter => [waiter]
  | _ => []

def isLooking : Reading → Bool
  | .looking _ => true
  | _ => false

def isPausing : Reading → Bool
  | .pausing _ => true
  | _ => false

end Reading

/-- How many are about to look for a batch. -/
def looking (reads : List Reading) : Nat := reads.countP Reading.isLooking

/-- How many have found nothing and are about to wait. -/
def pausing (reads : List Reading) : Nat := reads.countP Reading.isPausing

section Counts

variable (scope : Scope) (waiter : Nat) (reads : List Reading)

@[simp]
theorem looking_cons_looking : looking (.looking scope :: reads) = looking reads + 1 :=
  List.countP_cons_of_pos rfl

@[simp]
theorem looking_cons_pausing : looking (.pausing scope :: reads) = looking reads :=
  List.countP_cons_of_neg Bool.false_ne_true

@[simp]
theorem looking_cons_waiting : looking (.waiting scope waiter :: reads) = looking reads :=
  List.countP_cons_of_neg Bool.false_ne_true

@[simp]
theorem pausing_cons_looking : pausing (.looking scope :: reads) = pausing reads :=
  List.countP_cons_of_neg Bool.false_ne_true

@[simp]
theorem pausing_cons_pausing : pausing (.pausing scope :: reads) = pausing reads + 1 :=
  List.countP_cons_of_pos rfl

@[simp]
theorem pausing_cons_waiting : pausing (.waiting scope waiter :: reads) = pausing reads :=
  List.countP_cons_of_neg Bool.false_ne_true

end Counts

/-- Who waits or was woken is a read in progress, and those who wait have left no permit. -/
structure Enrolled (reads : List Reading) (m : Memory) : Prop where
  waiters : (reads.flatMap Reading.waiters).Perm (m.waiting ++ m.woken)
  nodup : (m.waiting ++ m.woken).Nodup
  lt_next : ∀ waiter ∈ m.waiting ++ m.woken, waiter < m.nextWaiter
  permit : m.permit = true → m.waiting = []

theorem Enrolled.perm {reads reads' : List Reading} {m : Memory} (h : Enrolled reads m)
    (same : reads.Perm reads') : Enrolled reads' m :=
  ⟨(same.flatMap_right _).symm.trans h.waiters, h.nodup, h.lt_next, h.permit⟩

/-- Waking a reader only moves it from those who wait to those who were woken. -/
theorem Enrolled.notify {reads : List Reading} {m : Memory} (h : Enrolled reads m) :
    Enrolled reads m.notify := by
  unfold Memory.notify
  split
  next reader rest hwaiting =>
    have hmoved : (m.waiting ++ m.woken).Perm (rest ++ (m.woken ++ [reader])) := by
      rw [hwaiting, ← List.append_assoc]
      exact (List.perm_append_singleton ..).symm
    refine ⟨h.waiters.trans hmoved, hmoved.nodup_iff.1 h.nodup, ?_, ?_⟩
    · exact fun waiter hmem => h.lt_next waiter (hmoved.mem_iff.2 hmem)
    · exact fun hpermit => absurd ((h.permit hpermit).symm.trans hwaiting) (by simp)
  next hnobody => exact ⟨h.waiters, h.nodup, h.lt_next, fun _ => hnobody⟩

/-- A read that no longer waits is no longer known. -/
theorem Enrolled.without {scope : Scope} {waiter : Nat} {others : List Reading} {m : Memory}
    (h : Enrolled (.waiting scope waiter :: others) m) : Enrolled others (m.without waiter) := by
  have hwaiters : (waiter :: others.flatMap Reading.waiters).Perm (m.waiting ++ m.woken) :=
    h.waiters
  have hall : m.waiting.filter (· ≠ waiter) ++ m.woken.filter (· ≠ waiter) =
      (m.waiting ++ m.woken).filter (· ≠ waiter) :=
    (List.filter_append ..).symm
  have hnew : waiter ∉ others.flatMap Reading.waiters :=
    (List.nodup_cons.1 (hwaiters.nodup_iff.2 h.nodup)).1
  have hothers : (waiter :: others.flatMap Reading.waiters).filter (· ≠ waiter) =
      others.flatMap Reading.waiters := by
    rw [List.filter_cons_of_neg (by simp)]
    exact List.filter_eq_self.2 fun other hmem => by
      simpa using fun heq : other = waiter => hnew (heq ▸ hmem)
  refine ⟨?_, ?_, ?_, ?_⟩
  · change List.Perm _ (m.waiting.filter (· ≠ waiter) ++ m.woken.filter (· ≠ waiter))
    rw [hall, ← hothers]
    exact hwaiters.filter _
  · change List.Nodup (m.waiting.filter (· ≠ waiter) ++ m.woken.filter (· ≠ waiter))
    rw [hall]
    exact h.nodup.filter _
  · intro other hmem
    change other ∈ m.waiting.filter (· ≠ waiter) ++ m.woken.filter (· ≠ waiter) at hmem
    rw [hall] at hmem
    exact h.lt_next other (List.mem_filter.1 hmem).1
  · intro hpermit
    change m.waiting.filter (· ≠ waiter) = []
    rw [h.permit hpermit, List.filter_nil]

/-- A step of a read keeps it known who waits. -/
theorem Enrolled.step {read : Reading} {others : List Reading} {m m' : Memory}
    {cancelled : Bool} {going : Going} (h : Enrolled (read :: others) m)
    (step : m.Steps cancelled read going m') : Enrolled (going.reads ++ others) m' := by
  cases step with
  | shut | delivers | ends | findsNone | turnsBack =>
      exact ⟨h.waiters, h.nodup, h.lt_next, h.permit⟩
  | permitted => exact ⟨h.waiters, h.nodup, h.lt_next, fun hpermit => by cases hpermit⟩
  | wakes => exact ⟨h.without.waiters, h.without.nodup, h.without.lt_next, h.without.permit⟩
  | passesOn => exact h.without.notify
  | leaves => exact h.without
  | @waits scope permit stays =>
      have hwaiters : (others.flatMap Reading.waiters).Perm (m.waiting ++ m.woken) := h.waiters
      have hmoved : (m.waiting ++ [m.nextWaiter] ++ m.woken).Perm
          (m.nextWaiter :: (m.waiting ++ m.woken)) := by
        rw [List.append_assoc]
        exact List.perm_middle
      have hnew : m.nextWaiter ∉ m.waiting ++ m.woken :=
        fun hmem => Nat.lt_irrefl _ (h.lt_next _ hmem)
      refine ⟨(hwaiters.cons _).trans hmoved.symm, ?_, ?_, ?_⟩
      · exact hmoved.nodup_iff.2 (List.nodup_cons.2 ⟨hnew, h.nodup⟩)
      · intro waiter hmem
        rcases List.mem_cons.1 (hmoved.mem_iff.1 hmem) with rfl | hold
        · exact Nat.lt_succ_self _
        · exact Nat.lt_succ_of_lt (h.lt_next waiter hold)
      · exact fun hpermit => absurd (permit.symm.trans hpermit) Bool.false_ne_true

/-! ## For each batch somebody is on the way -/

/-- While the source is open, and somebody waits or is about to, and there is no permit: for
each batch there is a read that was woken or is about to look. -/
def Supplied (reads : List Reading) (m : Memory) : Prop :=
  m.shutDown = false → m.permit = false →
    (m.waiting ≠ [] ∨ 0 < pausing reads) → m.batches.length ≤ m.woken.length + looking reads

theorem Supplied.perm {reads reads' : List Reading} {m : Memory} (h : Supplied reads m)
    (same : reads.Perm reads') : Supplied reads' m := by
  rw [Supplied, pausing, looking, ← same.countP_eq, ← same.countP_eq]
  exact h

/-- Who is woken finds one batch more. -/
theorem supplied_notify {reads : List Reading} {m : Memory}
    (h : m.shutDown = false → m.permit = false → m.waiting ≠ [] →
      m.batches.length ≤ m.woken.length + 1 + looking reads) :
    Supplied reads m.notify := by
  unfold Memory.notify
  split
  next reader rest hwaiting =>
    intro hopen hpermit _
    have hbound := h hopen hpermit (by simp [hwaiting])
    simpa using hbound
  next => exact fun _ hpermit => by cases hpermit

/-- One read less is among the woken. -/
theorem length_woken_without {scope : Scope} {waiter : Nat} {others : List Reading} {m : Memory}
    (h : Enrolled (.waiting scope waiter :: others) m) :
    m.woken.length ≤ (m.without waiter).woken.length + 1 := by
  have hnodup : m.woken.Nodup := (List.nodup_append.1 h.nodup).2.1
  have herased : m.woken.filter (· ≠ waiter) = m.woken.erase waiter := by
    rw [hnodup.erase_eq_filter]
    exact List.filter_congr fun other _ => by simp [bne, beq_eq_decide]
  have hlength : m.woken.length - 1 ≤ (m.woken.erase waiter).length := List.le_length_erase
  change m.woken.length ≤ (m.woken.filter (· ≠ waiter)).length + 1
  rw [herased]
  omega

/-- If somebody waits when a read is gone, somebody waited before. -/
theorem waiting_of_without {m : Memory} {waiter : Nat} (h : (m.without waiter).waiting ≠ []) :
    m.waiting ≠ [] :=
  fun hnobody => h (by simp [without, hnobody])

/-- A step of a read keeps it so, if no other read is about to wait when one is. -/
theorem Supplied.step {read : Reading} {others : List Reading} {m m' : Memory}
    {cancelled : Bool} {going : Going} (h : Supplied (read :: others) m)
    (enrolled : Enrolled (read :: others) m) (one : pausing (read :: others) ≤ 1)
    (step : m.Steps cancelled read going m') : Supplied (going.reads ++ others) m' := by
  cases step with
  | shut shutDown => exact fun hopen => absurd (shutDown.symm.trans hopen) (by simp)
  | ends opened empty closed => exact fun _ _ _ => by simp [empty]
  | findsNone opened empty more => exact fun _ _ _ => by simp [empty]
  | delivers opened head =>
      intro hopen hpermit hwaits
      have hbound := h hopen hpermit (by rwa [pausing_cons_looking])
      rw [head, List.length_cons, looking_cons_looking] at hbound
      exact Nat.le_of_succ_le_succ hbound
  | permitted permit =>
      -- The permit is used up, but then nobody waits or is about to.
      intro hopen _ hwaits
      rw [pausing_cons_pausing] at one
      have hnobody := enrolled.permit permit
      have hnone : pausing others = 0 := by omega
      simp [Progress.reads, hnobody, hnone] at hwaits
  | turnsBack gone =>
      intro hopen hpermit hwaits
      have hbound := h hopen hpermit (hwaits.imp_right fun _ => by simp)
      rwa [looking_cons_pausing] at hbound
  | waits permit stays =>
      intro hopen hpermit _
      have hbound := h hopen hpermit (.inr (by simp))
      rwa [looking_cons_pausing] at hbound
  | wakes woken =>
      intro hopen hpermit hwaits
      have hbound := h hopen hpermit (hwaits.imp waiting_of_without (by simp [Progress.reads]))
      have hwoken := length_woken_without enrolled
      change m.batches.length ≤ (m.without _).woken.length + looking (.looking _ :: others)
      rw [looking_cons_waiting] at hbound
      rw [looking_cons_looking]
      omega
  | passesOn woken gone =>
      refine supplied_notify fun hopen hpermit hwaits => ?_
      have hbound := h hopen hpermit (.inl (waiting_of_without hwaits))
      have hwoken := length_woken_without enrolled
      change m.batches.length ≤ (m.without _).woken.length + 1 + looking others
      rw [looking_cons_waiting] at hbound
      omega
  | @leaves scope waiter waits gone =>
      intro hopen hpermit hwaits
      have hbound := h hopen hpermit (hwaits.imp waiting_of_without (by simp [Progress.reads]))
      have hsame : m.woken.filter (· ≠ waiter) = m.woken :=
        List.filter_eq_self.2 fun other hother => by
          simpa using fun heq : other = waiter => waits (heq ▸ hother)
      change m.batches.length ≤ (m.woken.filter (· ≠ waiter)).length + looking others
      rwa [hsame, ← looking_cons_waiting scope waiter]

/-! ## Who will not be woken -/

/-- Nothing more will come: no batch will be waited for. -/
def Closed (m : Memory) : Prop := m.inputClosed = true ∨ m.shutDown = true

/-- The reads that wait, or are about to, and were not woken. -/
def unwoken (reads : List Reading) (m : Memory) : Nat := pausing reads + m.waiting.length

/-- Those of them for whom there is no permit either. -/
def stranded (reads : List Reading) (m : Memory) : Nat := unwoken reads m - m.permit.toNat

theorem stranded_perm {reads reads' : List Reading} (same : reads.Perm reads') (m : Memory) :
    stranded reads m = stranded reads' m := by
  rw [stranded, stranded, unwoken, unwoken, pausing, pausing, same.countP_eq]

/-- A wake-up leaves one less. -/
theorem stranded_notify (reads : List Reading) (m : Memory) :
    stranded reads m.notify ≤ unwoken reads m - 1 := by
  unfold Memory.notify
  split
  next reader rest hwaiting =>
    simp only [stranded, unwoken, hwaiting, List.length_cons]
    omega
  next hnobody => simp [stranded, unwoken, hnobody]

theorem unwoken_sub_one_le (reads : List Reading) (m : Memory) :
    unwoken reads m - 1 ≤ stranded reads m :=
  Nat.sub_le_sub_left (Bool.toNat_le _) _

theorem unwoken_without (scope : Scope) (waiter : Nat) (others : List Reading) (m : Memory) :
    unwoken others (m.without waiter) ≤ unwoken (.waiting scope waiter :: others) m := by
  rw [unwoken, unwoken, pausing_cons_waiting]
  exact Nat.add_le_add_left (List.length_filter_le ..) _

/-- When the source is closed, no step of a read adds to those who will not be woken. -/
theorem stranded_step {read : Reading} {others : List Reading} {m m' : Memory}
    {cancelled : Bool} {going : Going} (closed : m.Closed)
    (step : m.Steps cancelled read going m') :
    stranded (going.reads ++ others) m' ≤ stranded (read :: others) m := by
  cases step with
  | shut | delivers | ends => simp [stranded, unwoken, Progress.reads]
  | findsNone opened empty more =>
      rcases closed with hinput | hshut
      · exact absurd (more.symm.trans hinput) Bool.false_ne_true
      · exact absurd (opened.symm.trans hshut) Bool.false_ne_true
  | permitted permit =>
      simp only [stranded, unwoken, Progress.reads, permit, List.singleton_append,
        pausing_cons_looking, pausing_cons_pausing, Bool.toNat_true, Bool.toNat_false]
      omega
  | turnsBack =>
      simp only [stranded, unwoken, Progress.reads, List.nil_append, pausing_cons_pausing]
      omega
  | waits permit =>
      simp only [stranded, unwoken, Progress.reads, permit, List.singleton_append,
        List.length_append, List.length_singleton, pausing_cons_waiting, pausing_cons_pausing]
      omega
  | @wakes scope waiter =>
      have hless := unwoken_without scope waiter others m
      change unwoken (.looking scope :: others) (m.without waiter) - m.permit.toNat ≤ _
      rw [unwoken, pausing_cons_looking]
      exact Nat.sub_le_sub_right hless _
  | @leaves scope waiter => exact Nat.sub_le_sub_right (unwoken_without scope waiter others m) _
  | @passesOn scope waiter =>
      have hnotified := stranded_notify others (m.without waiter)
      have hless := unwoken_without scope waiter others m
      have hpermit := unwoken_sub_one_le (.waiting scope waiter :: others) m
      change stranded others (m.without waiter).notify ≤ _
      omega

/-! ## What a step does -/

/-- Anybody may read or connect at any time, and the owner of the source does what it likes. -/
def owners : Discipline port where
  enters _ _ := True
  changes f := ∃ deed : Deed, f = deed.apply

/-- The reads in progress. -/
def readings (s : Session port) : List Reading := s.readers.map Reader.read

/-- Nothing changes that bears on who waits. -/
structure Rests (m m' : Memory) : Prop where
  batches : m'.batches = m.batches
  inputClosed : m'.inputClosed = m.inputClosed
  shutDown : m'.shutDown = m.shutDown
  permit : m'.permit = m.permit
  waiting : m'.waiting = m.waiting
  woken : m'.woken = m.woken
  nextWaiter : m'.nextWaiter = m.nextWaiter

/-- What a step does to the reads in progress and to the source. -/
inductive Does (reads : List Reading) (m : Memory) : List Reading → Memory → Prop
  | begins {scope : Scope} {reads' : List Reading} {m' : Memory} (rests : m.Rests m')
      (after : (.looking scope :: reads).Perm reads') : Does reads m reads' m'
  | steps {read : Reading} {others reads' : List Reading} {m' : Memory} {cancelled : Bool}
      {going : Going} (before : reads.Perm (read :: others))
      (step : m.Steps cancelled read going m') (after : (going.reads ++ others).Perm reads') :
      Does reads m reads' m'
  | pushes (batch : Batch) : Does reads m reads (m.push batch)
  | closesInput : Does reads m reads m.closeInput
  | closes : Does reads m reads { m with shutDown := true }.notify
  | rests {m' : Memory} (rests : m.Rests m') : Does reads m reads m'

/-- What is in the middle of a list may be put first. -/
theorem perm_map_middle {α β : Type} (f : α → β) (before middle after : List α) :
    ((before ++ middle ++ after).map f).Perm (middle.map f ++ (before ++ after).map f) := by
  simp only [List.map_append, List.append_assoc]
  exact List.perm_append_comm_assoc ..

/-- The reads after a turn. -/
theorem reads_after (id : Nat) (going : Progress port.Read port.Receipt) :
    (Reader.after (P := port) id going).map Reader.read = going.reads := by
  cases going <;> rfl

/-- What a move of a session does. -/
theorem does_of_move {s s' : Session port} (move : s.Move owners s') :
    Does (readings s) s.state (readings s') s'.state := by
  cases move with
  | @turns choice point id before after progress a state enters readers turn =>
      have hbefore := perm_map_middle Reader.read before (point.readers id) after
      have hafter := (perm_map_middle Reader.read before (Reader.after id progress) after).symm
      rw [← readers] at hbefore
      rw [reads_after] at hafter
      cases point with
      | outside caller =>
          rcases Option.some.inj turn with ⟨rfl, -, rfl⟩
          exact .begins ⟨rfl, rfl, rfl, rfl, rfl, rfl, rfl⟩ ((hbefore.cons _).trans hafter)
      | inside read => exact .steps hbefore (steps_of_step turn).1 hafter
  | reports deliveries settles =>
      rcases settles with ⟨-, -, rfl⟩
      exact .rests ⟨rfl, rfl, rfl, rfl, rfl, rfl, rfl⟩
  | @connects caller result a state enters connects =>
      rcases connect_eq caller connects with ⟨count, failing, rfl⟩
      exact .rests ⟨rfl, rfl, rfl, rfl, rfl, rfl, rfl⟩
  | closes closes =>
      rcases closes with ⟨-, -, rfl⟩
      exact .closes
  | changes own =>
      rcases own with ⟨deed, rfl⟩
      cases deed with
      | push batch => exact .pushes batch
      | closeInput => exact .closesInput
      | failConnects n => exact .rests ⟨rfl, rfl, rfl, rfl, rfl, rfl, rfl⟩
  | elapses grows => exact .rests ⟨rfl, rfl, rfl, rfl, rfl, rfl, rfl⟩

theorem Enrolled.rests {reads : List Reading} {m m' : Memory} (h : Enrolled reads m)
    (rests : m.Rests m') : Enrolled reads m' := by
  rcases h with ⟨hwaiters, hnodup, hnext, hpermit⟩
  rw [← rests.waiting, ← rests.woken] at hwaiters hnodup hnext
  rw [← rests.waiting, ← rests.permit] at hpermit
  exact ⟨hwaiters, hnodup, rests.nextWaiter ▸ hnext, hpermit⟩

/-- Every step keeps it known who waits. -/
theorem Does.enrolled {reads reads' : List Reading} {m m' : Memory}
    (h : Does reads m reads' m') (enrolled : Enrolled reads m) : Enrolled reads' m' := by
  cases h with
  | @begins scope reads' m' rests after =>
      have hmore : Enrolled (.looking scope :: reads) m :=
        ⟨enrolled.waiters, enrolled.nodup, enrolled.lt_next, enrolled.permit⟩
      exact (hmore.rests rests).perm after
  | steps before step after => exact ((enrolled.perm before).step step).perm after
  | pushes batch =>
      have hadded : Enrolled reads (m.add batch) :=
        ⟨enrolled.waiters, enrolled.nodup, enrolled.lt_next, enrolled.permit⟩
      exact hadded.notify
  | closesInput =>
      have hclosed : Enrolled reads { m with inputClosed := true } :=
        ⟨enrolled.waiters, enrolled.nodup, enrolled.lt_next, enrolled.permit⟩
      exact hclosed.notify
  | closes =>
      have hclosed : Enrolled reads { m with shutDown := true } :=
        ⟨enrolled.waiters, enrolled.nodup, enrolled.lt_next, enrolled.permit⟩
      exact hclosed.notify
  | rests rests => exact enrolled.rests rests

theorem Supplied.rests {reads : List Reading} {m m' : Memory} (h : Supplied reads m)
    (rests : m.Rests m') : Supplied reads m' := by
  rw [Supplied, rests.shutDown, rests.permit, rests.waiting, rests.batches, rests.woken]
  exact h

/-- Every step keeps it so that for each batch somebody is on the way, if it leaves at most one
read about to wait. -/
theorem Does.supplied {reads reads' : List Reading} {m m' : Memory} (h : Does reads m reads' m')
    (enrolled : Enrolled reads m) (one : pausing reads ≤ 1) (supplied : Supplied reads m) :
    Supplied reads' m' := by
  cases h with
  | @begins scope reads' m' rests after =>
      have hmore : Supplied (.looking scope :: reads) m := by
        intro hopen hpermit hwaits
        rw [pausing_cons_looking] at hwaits
        rw [looking_cons_looking]
        exact Nat.le_succ_of_le (supplied hopen hpermit hwaits)
      exact (hmore.rests rests).perm after
  | steps before step after =>
      rw [pausing, before.countP_eq] at one
      exact ((supplied.perm before).step (enrolled.perm before) one step).perm after
  | pushes batch =>
      refine supplied_notify fun hopen hpermit hwaits => ?_
      have hbound := supplied hopen hpermit (.inl hwaits)
      simp only [add, List.length_append, List.length_singleton]
      omega
  | closesInput =>
      refine supplied_notify fun hopen hpermit hwaits => ?_
      have hbound := supplied hopen hpermit (.inl hwaits)
      change m.batches.length ≤ m.woken.length + 1 + looking reads
      omega
  | closes => exact supplied_notify fun hopen => by cases hopen
  | rests rests => exact supplied.rests rests

theorem stranded_rests (reads : List Reading) {m m' : Memory} (rests : m.Rests m') :
    stranded reads m' = stranded reads m := by
  rw [stranded, stranded, unwoken, unwoken, rests.waiting, rests.permit]

/-- Once the source is closed, no step adds to those who will not be woken. -/
theorem Does.stranded_le {reads reads' : List Reading} {m m' : Memory}
    (h : Does reads m reads' m') (closed : m.Closed) : stranded reads' m' ≤ stranded reads m := by
  cases h with
  | @begins scope reads' m' rests after =>
      rw [← stranded_perm after, stranded_rests _ rests, stranded, unwoken, pausing_cons_looking]
      exact Nat.le_refl _
  | steps before step after =>
      rw [← stranded_perm after, stranded_perm before]
      exact stranded_step closed step
  | pushes batch =>
      exact Nat.le_trans (stranded_notify reads (m.add batch)) (unwoken_sub_one_le reads m)
  | closesInput => exact Nat.le_trans (stranded_notify reads _) (unwoken_sub_one_le reads m)
  | closes => exact Nat.le_trans (stranded_notify reads _) (unwoken_sub_one_le reads m)
  | rests rests => exact Nat.le_of_eq (stranded_rests reads rests)

theorem Same.closed_iff {m m' : Memory} (h : m.Same m') : m'.Closed ↔ m.Closed := by
  rw [Closed, h.inputClosed, h.shutDown, Closed]

theorem Rests.closed_iff {m m' : Memory} (h : m.Rests m') : m'.Closed ↔ m.Closed := by
  rw [Closed, h.inputClosed, h.shutDown, Closed]

/-- A step leaves it whether the source is closed, or closes it and wakes one read. -/
theorem Does.closes_or {reads reads' : List Reading} {m m' : Memory}
    (h : Does reads m reads' m') :
    (m'.Closed ↔ m.Closed) ∨ m'.Closed ∧ stranded reads' m' ≤ unwoken reads m - 1 := by
  cases h with
  | begins rests after => exact .inl rests.closed_iff
  | steps before step after => exact .inl step.same.closed_iff
  | pushes batch => exact .inl (m.batches_push batch).1.closed_iff
  | closesInput =>
      have hclosed : m.closeInput.Closed := .inl m.same_closeInput.1.inputClosed
      exact .inr ⟨hclosed, stranded_notify reads _⟩
  | closes =>
      have hclosed : ({ m with shutDown := true }.notify).Closed := .inr (same_notify _).1.shutDown
      exact .inr ⟨hclosed, stranded_notify reads _⟩
  | rests rests => exact .inl rests.closed_iff

/-- A source that is closed stays so. -/
theorem Does.closed {reads reads' : List Reading} {m m' : Memory} (h : Does reads m reads' m')
    (closed : m.Closed) : m'.Closed := by
  rcases h.closes_or with hsame | ⟨hclosed, -⟩
  · exact hsame.2 closed
  · exact hclosed

/-! ## Where no read can take a step -/

/-- No read can take a step, whatever chance decides. -/
def Quiet (s : Session port) : Prop :=
  ∀ choice id, s.stepRead choice id = none

/-- A read that can take no step waits, was not woken, and is not cancelled. -/
theorem blocked_iff {read : Reading} {a : Ambient} {m : Memory} :
    (∀ choice, step choice read a m = none) ↔
      ∃ scope waiter, read = .waiting scope waiter ∧ waiter ∉ m.woken ∧
        ¬a.scopes.IsCancelled scope := by
  constructor
  · intro hblocked
    have hnone := hblocked ⟨false, fun low _ => low⟩
    cases read with
    | looking scope => cases hnone
    | pausing scope => cases hnone
    | waiting scope waiter =>
        simp only [step, resume, Option.map_eq_none_iff] at hnone
        refine ⟨scope, waiter, rfl, ?_, ?_⟩
        · intro hwoken
          simp [hwoken] at hnone
        · intro hcancelled
          by_cases hwoken : waiter ∈ m.woken <;> simp [hwoken, hcancelled] at hnone
  · rintro ⟨scope, waiter, rfl, hwoken, hgoing⟩ choice
    simp [step, resume, hwoken, hgoing]

/-- Where no read can take a step, all wait. -/
theorem quiet_iff {s : Session port} (hs : s.Distinct) :
    Quiet s ↔ ∀ reader ∈ s.readers, ∃ scope waiter, reader.read = .waiting scope waiter ∧
      waiter ∉ s.state.woken ∧ ¬s.ambient.scopes.IsCancelled scope := by
  constructor
  · intro hquiet reader hmem
    exact blocked_iff.1 fun choice => Session.step_eq_none hs hmem (hquiet choice reader.id)
  · intro hwait choice id
    cases hstep : s.stepRead choice id with
    | none => rfl
    | some result =>
        rcases Session.stepRead_eq_some hs hstep with
          ⟨before, after, read, progress, a, state, hreaders, hread, -, -⟩
        have hmem : (⟨id, read⟩ : Reader port) ∈ s.readers := by
          rw [hreaders]
          simp
        have hnone := blocked_iff.2 (hwait _ hmem) choice
        cases hnone.symm.trans hread

theorem counts_of_waiting {reads : List Reading}
    (h : ∀ read ∈ reads, ∃ scope waiter, read = .waiting scope waiter) :
    looking reads = 0 ∧ (reads.flatMap Reading.waiters).length = reads.length := by
  induction reads with
  | nil => exact ⟨rfl, rfl⟩
  | cons read rest ih =>
      rcases h read (.head _) with ⟨scope, waiter, rfl⟩
      rcases ih fun other hother => h other (.tail _ hother) with ⟨hlooking, hlength⟩
      refine ⟨by rwa [looking_cons_waiting], ?_⟩
      simp [List.flatMap_cons, Reading.waiters, hlength]

/-- Where no read can take a step, all wait, and nobody was woken. -/
theorem Enrolled.counts {s : Session port} (h : Enrolled (readings s) s.state) (hs : s.Distinct)
    (quiet : Quiet s) :
    looking (readings s) = 0 ∧ s.state.woken = [] ∧
      s.state.waiting.length = s.readers.length := by
  have hwait := (quiet_iff hs).1 quiet
  have hreads : ∀ read ∈ readings s, ∃ scope waiter, read = .waiting scope waiter ∧
      waiter ∉ s.state.woken := by
    intro read hmem
    rcases List.mem_map.1 hmem with ⟨reader, hreader, rfl⟩
    rcases hwait reader hreader with ⟨scope, waiter, hread, hwoken, -⟩
    exact ⟨scope, waiter, hread, hwoken⟩
  have hwaits : ∀ read ∈ readings s, ∃ scope waiter, read = .waiting scope waiter := by
    intro read hmem
    rcases hreads read hmem with ⟨scope, waiter, hread, -⟩
    exact ⟨scope, waiter, hread⟩
  rcases counts_of_waiting hwaits with ⟨hlooking, hlength⟩
  have hnobody : s.state.woken = [] := by
    refine List.eq_nil_iff_forall_not_mem.2 fun waiter hmem => ?_
    have hknown := h.waiters.mem_iff.2 (List.mem_append_right _ hmem)
    rcases List.mem_flatMap.1 hknown with ⟨read, hread, hwaiter⟩
    rcases hreads read hread with ⟨scope, own, rfl, hown⟩
    exact hown (List.mem_singleton.1 hwaiter ▸ hmem)
  refine ⟨hlooking, hnobody, ?_⟩
  have hall := h.waiters.length_eq
  rw [hlength, hnobody, List.append_nil] at hall
  exact hall.symm.trans (List.length_map ..)

/-- For who waits there is no permit. -/
theorem Enrolled.length_waiting_le {reads : List Reading} {m : Memory} (h : Enrolled reads m) :
    m.waiting.length ≤ stranded reads m := by
  cases hpermit : m.permit with
  | false => simp [stranded, unwoken, hpermit]
  | true => simp [h.permit hpermit]

/-! ## Sessions -/

/-- The source is closed for input, or as a whole. -/
inductive Closing (s : Session port) : Session port → Prop
  | input : Closing s (s.change closeInput)
  | whole (caller : Scope) : Closing s (s.close caller).2

theorem Closing.step {s s' : Session port} (h : Closing s s') : Session.Step owners s s' := by
  cases h with
  | input => exact .change ⟨.closeInput, rfl⟩
  | whole caller => exact .close caller

/-- Of those who wait as the source is closed, one is woken. -/
theorem Closing.stranded_le {s s' : Session port} (h : Closing s s') :
    s'.state.Closed ∧ stranded (readings s') s'.state ≤ unwoken (readings s) s.state - 1 := by
  cases h with
  | input =>
      exact ⟨.inl s.state.same_closeInput.1.inputClosed, stranded_notify (readings s) _⟩
  | whole caller => exact ⟨.inr (same_notify _).1.shutDown, stranded_notify (readings s) _⟩

/-- A session all of whose steps are of some kind. -/
inductive Runs (allowed : Session port → Session port → Prop) (source : Memory) (a : Ambient) :
    Session port → Prop
  | begins : Runs allowed source a (.new a source)
  | step {s s' : Session port} : Runs allowed source a s → Session.Step owners s s' →
      allowed s s' → Runs allowed source a s'

/-- At most one read is about to wait. -/
def OneByOne (_ s' : Session port) : Prop := pausing (readings s') ≤ 1

/-- At most one read is about to wait, and at most one was not woken as the source is closed. -/
def Heeded (s s' : Session port) : Prop :=
  OneByOne s s' ∧ (¬s.state.Closed → s'.state.Closed → unwoken (readings s) s.state ≤ 1)

theorem Runs.mono {allowed allowed' : Session port → Session port → Prop}
    (weaker : ∀ s s', allowed s s' → allowed' s s') {source : Memory} {a : Ambient}
    {s : Session port} (h : Runs allowed source a s) : Runs allowed' source a s := by
  induction h with
  | begins => exact .begins
  | step _ hstep hallowed ih => exact .step ih hstep (weaker _ _ hallowed)

theorem Runs.reaches {allowed : Session port → Session port → Prop} {source : Memory}
    {a : Ambient} {s : Session port} (h : Runs allowed source a s) :
    Session.Reaches owners (.new a source) s := by
  induction h with
  | begins => exact .start
  | step _ hstep _ ih => exact ih.step hstep

theorem Unused.enrolled {source : Memory} (h : Unused source) : Enrolled [] source := by
  rcases h.eq with ⟨queued, next, closed, -, rfl⟩
  exact ⟨.refl _, List.nodup_nil, fun _ hmem => (List.not_mem_nil hmem).elim, fun _ => rfl⟩

/-- In any session it is known who waits. -/
theorem enrolled_of_reaches {source : Memory} (unused : Unused source) {a : Ambient}
    {s : Session port} (h : Session.Reaches owners (.new a source) s) :
    Enrolled (readings s) s.state := by
  refine h.induct (motive := fun s => Enrolled (readings s) s.state) (Session.distinct_new _ _)
    unused.enrolled ?_
  intro s s' henrolled move
  exact (does_of_move move).enrolled henrolled

/-- Once the source is closed, no more reads will be left than are then. -/
theorem stranded_of_reaches {s s' : Session port} (hs : s.Distinct) (closed : s.state.Closed)
    (h : Session.Reaches owners s s') :
    stranded (readings s') s'.state ≤ stranded (readings s) s.state := by
  have hkept : s'.state.Closed ∧
      stranded (readings s') s'.state ≤ stranded (readings s) s.state := by
    refine h.induct (motive := fun t : Session port => t.state.Closed ∧
      stranded (readings t) t.state ≤ stranded (readings s) s.state) hs ⟨closed, Nat.le_refl _⟩ ?_
    rintro t t' ⟨hclosed, hle⟩ move
    have hdoes := does_of_move move
    exact ⟨hdoes.closed hclosed, Nat.le_trans (hdoes.stranded_le hclosed) hle⟩
  exact hkept.2

/-- For each batch somebody is on the way, if one read after the other comes to wait. -/
theorem Runs.supplied {source : Memory} (unused : Unused source) {a : Ambient}
    {s : Session port} (h : Runs OneByOne source a s) :
    Supplied (readings s) s.state ∧ pausing (readings s) ≤ 1 := by
  induction h with
  | begins =>
      rcases unused.eq with ⟨queued, next, closed, -, rfl⟩
      refine ⟨fun _ _ hwaits => ?_, Nat.zero_le _⟩
      rcases hwaits with hwaits | hpauses
      · exact absurd rfl hwaits
      · cases hpauses
  | @step s s' hruns hstep hone ih =>
      have hmove := hstep.move (hruns.reaches.distinct (Session.distinct_new _ _))
      exact ⟨(does_of_move hmove).supplied (enrolled_of_reaches unused hruns.reaches) ih.2 ih.1,
        hone⟩

/-- Nobody will be left by a closing that is heeded. -/
theorem Runs.stranded_eq_zero {source : Memory} (unused : Unused source) {a : Ambient}
    {s : Session port} (h : Runs Heeded source a s) (closed : s.state.Closed) :
    stranded (readings s) s.state = 0 := by
  induction h with
  | begins =>
      rcases unused.eq with ⟨queued, next, closed, -, rfl⟩
      rfl
  | @step s s' hruns hstep hheeded ih =>
      have hdoes := does_of_move (hstep.move (hruns.reaches.distinct (Session.distinct_new _ _)))
      by_cases hbefore : s.state.Closed
      · exact Nat.le_zero.1 (ih hbefore ▸ hdoes.stranded_le hbefore)
      · rcases hdoes.closes_or with hsame | ⟨-, hle⟩
        · exact absurd (hsame.1 closed) hbefore
        · have hone := hheeded.2 hbefore closed
          omega

/-- Who is left waiting when no read can take a step.

* Nobody whose scope is cancelled.
* After a closing, at most all but one of those who waited then, or were about to.
* Nobody while there is a batch and the source is not shut down, if one read after the other
  came to wait.
* Nobody at all while there is a batch, or if the source is closed for input or shut down, if
  besides at most one read waited, or was about to, as the source was closed. -/
structure FewLeft (source : Memory) (a : Ambient) (s : Session port) : Prop where
  uncancelled : ∀ reader ∈ s.readers, ¬s.ambient.scopes.IsCancelled (Reading.scope reader.read)
  closed : ∀ before after, Session.Reaches owners (.new a source) before →
    Closing before after → Session.Reaches owners after s →
      s.readers.length ≤ unwoken (readings before) before.state - 1
  supplied : Runs OneByOne source a s → s.state.shutDown = false → s.readers ≠ [] →
    s.state.batches = []
  heeded : Runs Heeded source a s → s.readers ≠ [] →
    s.state.batches = [] ∧ s.state.inputClosed = false ∧ s.state.shutDown = false

/-- Whoever is left waiting in a session of a source. -/
theorem few_left {source : Memory} (unused : Unused source) {a : Ambient} {s : Session port}
    (h : Session.Reaches owners (.new a source) s) (quiet : Quiet s) : FewLeft source a s := by
  have hs := h.distinct (Session.distinct_new _ _)
  have henrolled := enrolled_of_reaches unused h
  rcases henrolled.counts hs quiet with ⟨hlooking, hnobody, hlength⟩
  have hleft := hlength ▸ henrolled.length_waiting_le
  have hsupplied : Runs OneByOne source a s → s.state.shutDown = false → s.readers ≠ [] →
      s.state.batches = [] := by
    intro hruns hopen hsome
    have hwaiting : s.state.waiting ≠ [] := by
      intro hnone
      rw [hnone] at hlength
      exact hsome (List.length_eq_zero_iff.1 hlength.symm)
    have hpermit : s.state.permit = false :=
      Bool.eq_false_iff.2 fun hpermit => hwaiting (henrolled.permit hpermit)
    have hbound := (hruns.supplied unused).1 hopen hpermit (.inl hwaiting)
    rw [hlooking, hnobody] at hbound
    exact List.length_eq_zero_iff.1 (Nat.le_zero.1 hbound)
  refine ⟨?_, ?_, hsupplied, ?_⟩
  · intro reader hmem
    rcases (quiet_iff hs).1 quiet reader hmem with ⟨scope, waiter, hread, -, hgoing⟩
    rw [hread]
    exact hgoing
  · intro before after hbefore hclosing hafter
    rcases hclosing.stranded_le with ⟨hclosed, hle⟩
    have hdistinct := (hbefore.step hclosing.step).distinct (Session.distinct_new _ _)
    have hkept := stranded_of_reaches hdistinct hclosed hafter
    omega
  · intro hruns hsome
    have hopen : ¬s.state.Closed := by
      intro hclosed
      rw [hruns.stranded_eq_zero unused hclosed] at hleft
      exact hsome (List.length_eq_zero_iff.1 (Nat.le_zero.1 hleft))
    have hinput : s.state.inputClosed = false := by simpa using fun hinput => hopen (.inl hinput)
    have hshut : s.state.shutDown = false := by simpa using fun hshut => hopen (.inr hshut)
    exact ⟨hsupplied (hruns.mono fun _ _ => And.left) hshut hsome, hinput, hshut⟩

/-! ## Two reads

Two reads find nothing.  If both wait as the source is closed for input, one of them is woken.
If two batches are pushed before either waits, there is one permit. -/

namespace Crowd

def choice : Choice := ⟨false, fun low _ => low⟩

def caller : Scope := ⟨0, []⟩

def batch : Batch := (Mint.empty.batch [[97]]).1

/-- Two reads have begun. -/
def reading : Session port :=
  let s : Session port := .new (.start .epoch) .empty
  ((s.scope false).2.startRead choice caller).2.startRead choice caller |>.2

/-- Both have found nothing. -/
def pausing : Session port := (reading.goOn choice 0).goOn choice 1

/-- Both wait. -/
def waiting : Session port := (pausing.goOn choice 0).goOn choice 1

/-- The source is closed for input, and one of them is told. -/
def closed : Session port := ((waiting.change closeInput).goOn choice 0).goOn choice 0

/-- Two batches are pushed, and one read takes the first. -/
def pushed : Session port :=
  (((pausing.change (push · batch)).change (push · batch)).goOn choice 0).goOn choice 0

/-- The other waits. -/
def late : Session port := pushed.goOn choice 1

/-- What is reached from an empty source. -/
abbrev Reached (s : Session port) : Prop :=
  Session.Reaches owners (.new (.start .epoch) .empty) s

theorem reached_pausing : Reached pausing := by
  have hbegun : Reached reading :=
    ((Session.Reaches.start.step (.scope _ false)).step (.startRead choice trivial)).step
      (.startRead choice trivial)
  exact (hbegun.goOn choice 0).goOn choice 1

theorem reached_closed : Reached closed := by
  have hwaiting : Reached waiting := (reached_pausing.goOn choice 0).goOn choice 1
  exact ((hwaiting.step (.change ⟨.closeInput, rfl⟩)).goOn choice 0).goOn choice 0

theorem reached_late : Reached late := by
  have hstocked : Reached ((pausing.change (push · batch)).change (push · batch)) :=
    (reached_pausing.step (.change ⟨.push batch, rfl⟩)).step (.change ⟨.push batch, rfl⟩)
  exact ((hstocked.goOn choice 0).goOn choice 0).goOn choice 1

theorem readers_closed : closed.readers = [⟨1, .waiting caller 1⟩] := rfl

theorem readers_late : late.readers = [⟨1, .waiting caller 0⟩] := rfl

theorem quiet_closed : Quiet closed := by
  refine (quiet_iff (reached_closed.distinct (Session.distinct_new _ _))).2 ?_
  intro reader hmem
  rw [readers_closed, List.mem_singleton] at hmem
  exact ⟨caller, 1, by rw [hmem], by decide, by decide⟩

theorem quiet_late : Quiet late := by
  refine (quiet_iff (reached_late.distinct (Session.distinct_new _ _))).2 ?_
  intro reader hmem
  rw [readers_late, List.mem_singleton] at hmem
  exact ⟨caller, 0, by rw [hmem], by decide, by decide⟩

end Crowd

/-- Of the two that waited as the source was closed, one is left. -/
theorem few_left_crowd : Crowd.closed.readers.length = 1 ∧
    FewLeft .empty (.start .epoch) Crowd.closed :=
  ⟨rfl, few_left .empty Crowd.reached_closed Crowd.quiet_closed⟩

/-- A read waits though the source is closed for input, and one though there is a batch. -/
theorem left_behind :
    (∃ s, Session.Reaches owners (.new (.start .epoch) .empty) s ∧ Quiet s ∧ s.readers ≠ [] ∧
      s.state.inputClosed = true) ∧
    ∃ s, Session.Reaches owners (.new (.start .epoch) .empty) s ∧ Quiet s ∧ s.readers ≠ [] ∧
      s.state.batches ≠ [] ∧ s.state.inputClosed = false ∧ s.state.shutDown = false := by
  constructor
  · exact ⟨Crowd.closed, Crowd.reached_closed, Crowd.quiet_closed,
      by simp [Crowd.readers_closed], rfl⟩
  · refine ⟨Crowd.late, Crowd.reached_late, Crowd.quiet_late, by simp [Crowd.readers_late], ?_,
      rfl, rfl⟩
    have hone : Crowd.late.state.batches.length = 1 := rfl
    exact List.ne_nil_of_length_pos (by rw [hone]; exact Nat.zero_lt_one)

end Memory

end Redelivery
