import Redelivery.Port

/-!
# Turns of a read

A read begins with `start` and goes on with `step`.  What holds of a read is mostly
said of both at once: a turn takes a read from where it stands, which may be nowhere,
to where it stands next or to its end.

A port shares the clock, the scopes and the mint with everything else that runs.  A
steady port leaves them only ever grown; an aloof port touches none of them, and a gentle
port cancels no scope; a prompt port never leaves a read blocked whose scope is cancelled;
a candid port gives up a read only if its scope is cancelled; a port with answers takes a
report of success by the batch that it is about.  These are what a source promises to those
who read from it.

Main definitions:

* `Port.Point`, `Port.turn`: where a read stands, and what becomes of it in a turn.
* `Port.Acts`: what an operation of the port leads to, whichever it is.
* `Ambient.Grows`: time has passed, and things were made and cancelled.
* `Ambient.Adds`: time has passed, and things were made, and nothing was cancelled.
* `Port.Steady`, `Port.Aloof`, `Port.Gentle`, `Port.RunsIn`, `Port.Prompt`, `Port.Candid`,
  `Port.Answers`: what a source promises.
-/

namespace Redelivery

/-! ## Growth -/

/-- Scopes are added and cancelled; none goes away, and none is cancelled no more. -/
structure Scopes.Grows (scopes scopes' : Scopes) : Prop where
  size_le : scopes.flags.size ≤ scopes'.flags.size
  flag : ∀ id, scopes.flag id = true → scopes'.flag id = true

namespace Scopes

theorem Grows.refl (scopes : Scopes) : scopes.Grows scopes :=
  ⟨Nat.le_refl _, fun _ h => h⟩

theorem Grows.trans {s t u : Scopes} (hst : s.Grows t) (htu : t.Grows u) : s.Grows u :=
  ⟨Nat.le_trans hst.size_le htu.size_le, fun id h => htu.flag id (hst.flag id h)⟩

theorem grows_child (scopes : Scopes) (outer : Scope) :
    scopes.Grows (scopes.child outer).2 :=
  ⟨by simp, by simp⟩

theorem grows_fresh (scopes : Scopes) : scopes.Grows scopes.fresh.2 :=
  ⟨by simp, by simp⟩

theorem grows_cancel (scopes : Scopes) (scope : Scope) :
    scopes.Grows (scopes.cancel scope) :=
  ⟨by simp, fun id h => by simp [flag_cancel, h]⟩

/-- What is cancelled stays cancelled. -/
theorem IsCancelled.mono {scopes scopes' : Scopes} {scope : Scope} (h : scopes.IsCancelled scope)
    (grows : scopes.Grows scopes') : scopes'.IsCancelled scope :=
  h.imp (grows.flag _) fun ⟨id, hid, hflag⟩ => ⟨id, hid, grows.flag _ hflag⟩

/-- A scope inside a cancelled one is cancelled. -/
theorem IsCancelled.of_around {scopes : Scopes} {scope outer : Scope}
    (h : scopes.IsCancelled outer) (around : scope.around = outer.id :: outer.around) :
    scopes.IsCancelled scope := by
  right
  rw [around]
  rcases h with hown | ⟨id, hid, hflag⟩
  · exact ⟨outer.id, List.mem_cons_self, hown⟩
  · exact ⟨id, List.mem_cons_of_mem _ hid, hflag⟩

/-- Cancelling a scope cancels no scope that it is not around. -/
theorem isCancelled_cancel_of_ne {scopes : Scopes} {scope other : Scope}
    (h : ∀ id ∈ other.id :: other.around, id ≠ scope.id) :
    (scopes.cancel scope).IsCancelled other ↔ scopes.IsCancelled other := by
  have hflag : ∀ id ∈ other.id :: other.around,
      (scopes.cancel scope).flag id = scopes.flag id := by
    intro id hid
    simp [flag_cancel, h id hid]
  refine or_congr ?_ (exists_congr fun id => and_congr_right fun hid => ?_)
  · rw [hflag other.id List.mem_cons_self]
  · rw [hflag id (List.mem_cons_of_mem _ hid)]

end Scopes

/-- Time has passed, scopes were opened and cancelled, parts and groups were made. -/
structure Ambient.Grows (a a' : Ambient) : Prop where
  now_le : a.now ≤ a'.now
  scopes : a.scopes.Grows a'.scopes
  contents_le : a.mint.contents ≤ a'.mint.contents
  groups_le : a.mint.groups ≤ a'.mint.groups

namespace Ambient

theorem Grows.refl (a : Ambient) : a.Grows a :=
  ⟨Nat.le_refl _, .refl _, Nat.le_refl _, Nat.le_refl _⟩

theorem Grows.trans {a b c : Ambient} (hab : a.Grows b) (hbc : b.Grows c) : a.Grows c where
  now_le := Nat.le_trans hab.now_le hbc.now_le
  scopes := hab.scopes.trans hbc.scopes
  contents_le := Nat.le_trans hab.contents_le hbc.contents_le
  groups_le := Nat.le_trans hab.groups_le hbc.groups_le

theorem grows_childScope (a : Ambient) (outer : Scope) : a.Grows (a.childScope outer).2 :=
  ⟨Nat.le_refl _, a.scopes.grows_child outer, Nat.le_refl _, Nat.le_refl _⟩

theorem grows_freshScope (a : Ambient) : a.Grows a.freshScope.2 :=
  ⟨Nat.le_refl _, a.scopes.grows_fresh, Nat.le_refl _, Nat.le_refl _⟩

theorem grows_cancel (a : Ambient) (scope : Scope) : a.Grows (a.cancel scope) :=
  ⟨Nat.le_refl _, a.scopes.grows_cancel scope, Nat.le_refl _, Nat.le_refl _⟩

theorem grows_advance (a : Ambient) (ms : Nat) : a.Grows (a.advance ms) :=
  ⟨Nat.le_add_right .., .refl _, Nat.le_refl _, Nat.le_refl _⟩

theorem grows_batch (a : Ambient) (contents : List (List UInt8)) :
    a.Grows { a with mint := (a.mint.batch contents).2 } := by
  rw [a.mint.snd_batch]
  exact ⟨Nat.le_refl _, .refl _, Nat.le_add_right .., Nat.le_refl _⟩

end Ambient

/-- Something was added to what is shared, and no scope was cancelled. -/
structure Ambient.Adds (a a' : Ambient) : Prop where
  grows : a.Grows a'
  flag : ∀ id, a'.scopes.flag id = a.scopes.flag id

namespace Ambient.Adds

theorem refl (a : Ambient) : a.Adds a := ⟨.refl a, fun _ => rfl⟩

theorem trans {a b c : Ambient} (hab : a.Adds b) (hbc : b.Adds c) : a.Adds c :=
  ⟨hab.grows.trans hbc.grows, fun id => (hbc.flag id).trans (hab.flag id)⟩

end Ambient.Adds

/-! ## Turns -/

/-- Where a read stands before a turn: it is about to begin in a caller's scope, or it
is in progress. -/
inductive Port.Point (P : Port) where
  | outside (caller : Scope)
  | inside (read : P.Read)

namespace Port

variable {P : Port}

/-- A turn of a read: it begins, or takes a step; `none` if it is blocked. -/
def turn (P : Port) (choice : Choice) :
    P.Point → Ambient → P.State → Option (Progress P.Read P.Receipt × Ambient × P.State)
  | .outside caller, a, s => some (P.start choice caller a s)
  | .inside read, a, s => P.step choice read a s

/-- What the port leads to in one operation, from what is shared and its own state: in a turn
of a read, or as it is connected, closed or reported to. -/
inductive Acts (P : Port) (a : Ambient) (s : P.State) : Ambient → P.State → Prop
  | turn {choice : Choice} {point : P.Point} {progress : Progress P.Read P.Receipt} {a' : Ambient}
      {s' : P.State} (turn : P.turn choice point a s = some (progress, a', s')) : Acts P a s a' s'
  | connect {caller : Scope} {result : Except ReadError Unit} {a' : Ambient} {s' : P.State}
      (connects : P.connect caller a s = (result, a', s')) : Acts P a s a' s'
  | close {caller : Scope} {result : Except ReadError Unit} {a' : Ambient} {s' : P.State}
      (closes : P.close caller a s = (result, a', s')) : Acts P a s a' s'
  | settle {receipt : P.Receipt} {outcome : Outcome} {settlement : Settlement} {a' : Ambient}
      {s' : P.State} (settles : P.settle receipt outcome a s = (settlement, a', s')) :
      Acts P a s a' s'

/-- A port that neither turns back the clock nor takes back what was made or
cancelled. -/
structure Steady (P : Port) : Prop where
  turn : ∀ {choice point a s progress a' s'},
    P.turn choice point a s = some (progress, a', s') → a.Grows a'
  connect : ∀ (caller : Scope) (a : Ambient) (s : P.State), a.Grows (P.connect caller a s).2.1
  close : ∀ (caller : Scope) (a : Ambient) (s : P.State), a.Grows (P.close caller a s).2.1
  settle : ∀ (receipt : P.Receipt) (outcome : Outcome) (a : Ambient) (s : P.State),
    a.Grows (P.settle receipt outcome a s).2.1

/-- A port touches nothing that is shared. -/
structure Aloof (P : Port) : Prop where
  turn : ∀ {choice point a s progress a' s'},
    P.turn choice point a s = some (progress, a', s') → a' = a
  connect : ∀ (caller : Scope) (a : Ambient) (s : P.State), (P.connect caller a s).2.1 = a
  close : ∀ (caller : Scope) (a : Ambient) (s : P.State), (P.close caller a s).2.1 = a
  settle : ∀ (receipt : P.Receipt) (outcome : Outcome) (a : Ambient) (s : P.State),
    (P.settle receipt outcome a s).2.1 = a

/-- A port that touches nothing takes nothing back. -/
theorem Aloof.steady (h : P.Aloof) : P.Steady where
  turn hturn := by
    rw [h.turn hturn]
    exact .refl _
  connect caller a s := by
    rw [h.connect]
    exact .refl a
  close caller a s := by
    rw [h.close]
    exact .refl a
  settle receipt outcome a s := by
    rw [h.settle]
    exact .refl a

/-- A port cancels no scope, whatever it does. -/
def Gentle (P : Port) : Prop :=
  ∀ {a a' : Ambient} {s s' : P.State}, P.Acts a s a' s' →
    ∀ id, a'.scopes.flag id = a.scopes.flag id

/-- A port that touches nothing cancels nothing. -/
theorem Aloof.gentle (h : P.Aloof) : P.Gentle := by
  intro a a' s s' acts id
  have hsame : a' = a := by
    cases acts with
    | turn turn => exact h.turn turn
    | connect connects => exact (congrArg (·.2.1) connects).symm.trans (h.connect _ a s)
    | close closes => exact (congrArg (·.2.1) closes).symm.trans (h.close _ a s)
    | settle settles => exact (congrArg (·.2.1) settles).symm.trans (h.settle _ _ a s)
  rw [hsame]

/-- The reads that may be in progress after they began in a scope. -/
inductive RunsIn (P : Port) (scope : Scope) : P.Read → Prop
  | start {choice a s read a' s'} :
      P.start choice scope a s = (.going read, a', s') → RunsIn P scope read
  | step {choice read a s read' a' s'} : RunsIn P scope read →
      P.step choice read a s = some (.going read', a', s') → RunsIn P scope read'

/-- A port whose reads can go on, whatever its state, once their scope is cancelled. -/
def Prompt (P : Port) : Prop :=
  ∀ scope read, P.RunsIn scope read → ∀ a s, a.scopes.IsCancelled scope →
    ∃ choice, (P.step choice read a s).isSome

/-- The read is about to begin in a scope, or may be in progress after it began there. -/
def Point.Within (scope : Scope) : P.Point → Prop
  | .outside caller => caller = scope
  | .inside read => P.RunsIn scope read

/-- A port whose reads give up only if their scope is cancelled, and never time out. -/
structure Candid (P : Port) : Prop where
  cancelled : ∀ {choice point scope a s a' s'}, point.Within scope →
    P.turn choice point a s = some (.ended (.failed .cancelled), a', s') →
    a.scopes.IsCancelled scope
  timeout : ∀ {choice point a s a' s'},
    P.turn choice point a s ≠ some (.ended (.failed .timeout), a', s')

/-- In states that reports of success keep, what comes back for one depends on its receipt
alone. -/
structure Answers (P : Port) (kept : P.State → Prop) (answer : P.Receipt → Settlement) :
    Prop where
  settlement : ∀ (receipt : P.Receipt) (a : Ambient) (s : P.State), kept s →
    (P.settle receipt .processed a s).1 = answer receipt
  keeps : ∀ (receipt : P.Receipt) (a : Ambient) (s : P.State), kept s →
    kept (P.settle receipt .processed a s).2.2

end Port

end Redelivery
