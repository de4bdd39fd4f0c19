import Mathlib.Data.List.Nodup
import Mathlib.Data.List.Perm.Subperm
import Redelivery.Proofs.Port.Turn
import Redelivery.Session.Basic

/-!
# What can happen to a port in use

A session goes from one state to the next in steps: somebody begins to read, a read
goes on, an outcome is reported, the port is connected or closed or changes by itself,
or something else happens around it.  Steps may come in any order, so what holds of all
sessions that can be reached holds of every interleaving.

A discipline says who may begin to read or to connect, and how the port may change by
itself.  The steps of a session are seen once, in `Step.move`, for what they do to the
lists of reads and deliveries; all invariants are then proved by `Reaches.induct`.

Main definitions:

* `Discipline`, `Session.Step`, `Session.Reaches`: the steps and what they lead to.
* `Session.Distinct`: reads and deliveries have numbers of their own.
* `Session.Move`: what a step does.

Main results:

* Theorem `Session.Step.move`: every step is a move.
* Theorem `Session.Reaches.induct`: what every move keeps holds of all that is reached.
-/

namespace Redelivery

/-- What those who use a port may do, and how it may change by itself. -/
structure Discipline (P : Port) where
  /-- Somebody may begin to read, or connect, in a scope. -/
  enters : Session P → Scope → Prop
  /-- The port may change by itself in this way. -/
  changes : (P.State → P.State) → Prop

variable {P : Port}

/-- The read that is in progress before a turn. -/
def Port.Point.readers (id : Nat) : P.Point → List (Reader P)
  | .outside _ => []
  | .inside read => [⟨id, read⟩]

/-- The number that comes after a turn. -/
def Port.Point.next (next : Nat) : P.Point → Nat
  | .outside _ => next + 1
  | .inside _ => next

/-- The read that is in progress after a turn. -/
def Reader.after (id : Nat) : Progress P.Read P.Receipt → List (Reader P)
  | .going read => [⟨id, read⟩]
  | .ended _ => []

/-- What the end of a read tells its reader. -/
def Answer.reply {ρ : Type} : Answer ρ → Reply
  | .delivered batch _ => .delivered batch
  | .failed error => .failed error
  | .died reason => .died reason

/-- What a turn tells its reader, if it ends the read. -/
def Progress.reply {θ ρ : Type} : Progress θ ρ → Option Reply
  | .going _ => none
  | .ended answer => some answer.reply

/-- A turn that tells of a failure has ended with it. -/
theorem Progress.eq_failed {θ ρ : Type} {progress : Progress θ ρ} {error : ReadError}
    (h : progress.reply = some (.failed error)) : progress = .ended (.failed error) := by
  cases progress with
  | going read => cases h
  | ended answer =>
      cases answer with
      | delivered batch receipt | died reason => cases h
      | failed found =>
          cases h
          rfl

/-- The delivery that a turn comes to. -/
def Delivery.after (id : Nat) : Progress P.Read P.Receipt → List (Delivery P)
  | .ended (.delivered batch receipt) => [⟨id, batch, receipt⟩]
  | _ => []

namespace Session

/-! ## Steps -/

/-- One thing that happens to a port in use. -/
inductive Step (D : Discipline P) (s : Session P) : Session P → Prop
  | startRead (choice : Choice) {caller : Scope} (enters : D.enters s caller) :
      Step D s (s.startRead choice caller).2
  | stepRead {choice id reply s'} (h : s.stepRead choice id = some (reply, s')) : Step D s s'
  | report {id outcome settlement s'} (h : s.report id outcome = some (settlement, s')) :
      Step D s s'
  | connect {caller : Scope} (enters : D.enters s caller) : Step D s (s.connect caller).2
  | close (caller : Scope) : Step D s (s.close caller).2
  | change {f : P.State → P.State} (own : D.changes f) : Step D s (s.change f)
  /-- Time passes, scopes are opened and cancelled, others make parts and groups. -/
  | elapse {a : Ambient} (grows : s.ambient.Grows a) : Step D s { s with ambient := a }

/-- What can be reached by steps. -/
inductive Reaches (D : Discipline P) (start : Session P) : Session P → Prop
  | start : Reaches D start start
  | step {s s' : Session P} : Reaches D start s → Step D s s' → Reaches D start s'

variable {D : Discipline P}

/-- Letting time pass is a step. -/
theorem Step.advance (s : Session P) (ms : Nat) : Step D s (s.advance ms) :=
  .elapse (s.ambient.grows_advance ms)

/-- Opening a scope is a step. -/
theorem Step.scope (s : Session P) (cancelled : Bool) : Step D s (s.scope cancelled).2 := by
  cases cancelled with
  | false => exact .elapse s.ambient.grows_freshScope
  | true => exact .elapse (s.ambient.grows_freshScope.trans (Ambient.grows_cancel _ _))

/-- A scope is not cancelled as it is opened. -/
theorem not_isCancelled_scope (s : Session P) :
    ¬(s.scope false).2.ambient.scopes.IsCancelled (s.scope false).1 := by
  have hflag : (s.scope false).2.ambient.scopes.flag s.ambient.scopes.flags.size = false :=
    (Scopes.flag_fresh ..).trans (by simp [Scopes.flag])
  rintro (hown | ⟨id, haround, -⟩)
  · exact absurd (hflag.symm.trans hown) (by simp)
  · cases haround

/-- Cancelling a scope is a step. -/
theorem Step.cancel (s : Session P) (scope : Scope) : Step D s (s.cancel scope) :=
  .elapse (s.ambient.grows_cancel scope)

/-- A step under a discipline is one under any that allows more. -/
theorem Step.mono {D' : Discipline P}
    (enters : ∀ s caller, D.enters s caller → D'.enters s caller)
    (changes : ∀ f, D.changes f → D'.changes f) {s s' : Session P} (h : Step D s s') :
    Step D' s s' := by
  cases h with
  | startRead choice allowed => exact .startRead choice (enters _ _ allowed)
  | stepRead h => exact .stepRead h
  | report h => exact .report h
  | connect allowed => exact .connect (enters _ _ allowed)
  | close caller => exact .close caller
  | change own => exact .change (changes _ own)
  | elapse grows => exact .elapse grows

/-- What is reached under a discipline is reached under one that allows more. -/
theorem Reaches.mono {D' : Discipline P}
    (enters : ∀ s caller, D.enters s caller → D'.enters s caller)
    (changes : ∀ f, D.changes f → D'.changes f) {start s : Session P} (h : Reaches D start s) :
    Reaches D' start s := by
  induction h with
  | start => exact .start
  | step _ hstep ih => exact ih.step (hstep.mono enters changes)

theorem Reaches.trans {s₀ s s' : Session P} (h : Reaches D s₀ s) (h' : Reaches D s s') :
    Reaches D s₀ s' := by
  induction h' with
  | start => exact h
  | step _ hstep ih => exact ih.step hstep

/-- The session after a read has gone on, if it can. -/
def goOn (s : Session P) (choice : Choice) (id : Nat) : Session P :=
  ((s.stepRead choice id).map Prod.snd).getD s

/-- The session after a report, if there is a delivery to report on. -/
def told (s : Session P) (id : Nat) (outcome : Outcome) : Session P :=
  ((s.report id outcome).map Prod.snd).getD s

theorem Reaches.goOn {start s : Session P} (h : Reaches D start s) (choice : Choice) (id : Nat) :
    Reaches D start (s.goOn choice id) := by
  unfold Session.goOn
  cases hstep : s.stepRead choice id with
  | none => exact h
  | some result => exact h.step (.stepRead hstep)

theorem Reaches.told {start s : Session P} (h : Reaches D start s) (id : Nat) (outcome : Outcome) :
    Reaches D start (s.told id outcome) := by
  unfold Session.told
  cases hreport : s.report id outcome with
  | none => exact h
  | some result => exact h.step (.report hreport)

/-! ## What a step does -/

/-- Reads and deliveries have numbers of their own, all used before the next one. -/
structure Distinct (s : Session P) : Prop where
  nodup : (s.readers.map Reader.id ++ s.deliveries.map Delivery.id).Nodup
  lt_next : ∀ id ∈ s.readers.map Reader.id ++ s.deliveries.map Delivery.id, id < s.next

theorem distinct_new (ambient : Ambient) (state : P.State) : (new ambient state).Distinct :=
  ⟨by simp [new], by simp [new]⟩

/-- What a step does to the lists of reads and deliveries. -/
inductive Move (D : Discipline P) (s : Session P) : Session P → Prop
  /-- A read takes a turn: it begins, goes on, or ends. -/
  | turns {choice : Choice} {point : P.Point} {id : Nat} {before after : List (Reader P)}
      {progress : Progress P.Read P.Receipt} {a : Ambient} {state : P.State}
      (enters : ∀ caller, point = .outside caller → D.enters s caller ∧ id = s.next)
      (readers : s.readers = before ++ point.readers id ++ after)
      (turn : P.turn choice point s.ambient s.state = some (progress, a, state)) :
      Move D s ⟨a, state, before ++ Reader.after id progress ++ after,
        s.deliveries ++ Delivery.after id progress, point.next s.next⟩
  | reports {delivery : Delivery P} {outcome : Outcome} {settlement : Settlement}
      {before after : List (Delivery P)} {a : Ambient} {state : P.State}
      (deliveries : s.deliveries = before ++ delivery :: after)
      (settles : P.settle delivery.receipt outcome s.ambient s.state = (settlement, a, state)) :
      Move D s ⟨a, state, s.readers, before ++ after, s.next⟩
  | connects {caller : Scope} {result : Except ReadError Unit} {a : Ambient} {state : P.State}
      (enters : D.enters s caller)
      (connects : P.connect caller s.ambient s.state = (result, a, state)) :
      Move D s ⟨a, state, s.readers, s.deliveries, s.next⟩
  | closes {caller : Scope} {result : Except ReadError Unit} {a : Ambient} {state : P.State}
      (closes : P.close caller s.ambient s.state = (result, a, state)) :
      Move D s ⟨a, state, s.readers, s.deliveries, s.next⟩
  | changes {f : P.State → P.State} (own : D.changes f) :
      Move D s ⟨s.ambient, f s.state, s.readers, s.deliveries, s.next⟩
  | elapses {a : Ambient} (grows : s.ambient.Grows a) :
      Move D s ⟨a, s.state, s.readers, s.deliveries, s.next⟩

/-- In a list with distinct keys, the others have other keys. -/
private theorem ne_key_of_nodup {α : Type} {key : α → Nat} {before after : List α} {x : α}
    (h : ((before ++ x :: after).map key).Nodup) :
    (∀ y ∈ before, key y ≠ key x) ∧ ∀ y ∈ after, key y ≠ key x := by
  simp only [List.map_append, List.map_cons, List.nodup_append, List.nodup_cons,
    List.mem_cons, List.mem_map] at h
  rcases h with ⟨-, ⟨hafter, -⟩, hbefore⟩
  exact ⟨fun y hy => hbefore _ ⟨y, hy, rfl⟩ _ (.inl rfl), fun y hy heq => hafter ⟨y, hy, heq⟩⟩

/-- In a list with distinct keys, the entry with a key is the one that is found. -/
theorem find?_key_eq_some {α : Type} {key : α → Nat} {l : List α} {x : α}
    (h : (l.map key).Nodup) (hmem : x ∈ l) :
    l.find? (fun y => key y = key x) = some x := by
  cases hfind : l.find? (fun y => key y = key x) with
  | none => simpa using List.find?_eq_none.1 hfind x hmem
  | some found =>
      have hkey : key found = key x := by simpa using List.find?_some hfind
      rw [List.inj_on_of_nodup_map h (List.mem_of_find?_eq_some hfind) hmem hkey]

/-- All but the entry with a key are left. -/
private theorem filter_ne_key {α : Type} {key : α → Nat} {before after : List α} {x : α}
    (h : ((before ++ x :: after).map key).Nodup) :
    (before ++ x :: after).filter (fun y => key y ≠ key x) = before ++ after := by
  rcases ne_key_of_nodup h with ⟨hbefore, hafter⟩
  have hb : before.filter (fun y => key y ≠ key x) = before :=
    List.filter_eq_self.2 fun y hy => by simpa using hbefore y hy
  have ha : after.filter (fun y => key y ≠ key x) = after :=
    List.filter_eq_self.2 fun y hy => by simpa using hafter y hy
  rw [List.filter_append, List.filter_cons_of_neg (by simp), hb, ha]

/-- The entry with a key is replaced and no other. -/
private theorem map_replace_key {α : Type} {key : α → Nat} {before after : List α} {x : α}
    (h : ((before ++ x :: after).map key).Nodup) (x' : α) :
    (before ++ x :: after).map (fun y => if key y = key x then x' else y) =
      before ++ x' :: after := by
  rcases ne_key_of_nodup h with ⟨hbefore, hafter⟩
  have hb : ∀ y ∈ before, (if key y = key x then x' else y) = y :=
    fun y hy => if_neg (hbefore y hy)
  have ha : ∀ y ∈ after, (if key y = key x then x' else y) = y :=
    fun y hy => if_neg (hafter y hy)
  rw [List.map_append, List.map_cons, List.map_congr_left hb, List.map_congr_left ha]
  simp

/-- The end of a read is told, and becomes a delivery if it is one. -/
private theorem conclude_eq (s : Session P) (id : Nat) (answer : Answer P.Receipt) :
    s.conclude id answer = (answer.reply,
      { s with deliveries := s.deliveries ++ Delivery.after id (.ended answer) }) := by
  cases answer <;> simp [conclude, Delivery.after, Answer.reply]

/-- A read begins as its port says. -/
theorem startRead_eq {s : Session P} {choice : Choice} {caller : Scope}
    {progress : Progress P.Read P.Receipt} {a : Ambient} {state : P.State}
    (h : P.start choice caller s.ambient s.state = (progress, a, state)) :
    s.startRead choice caller =
      (progress.reply, ⟨a, state, s.readers ++ Reader.after s.next progress,
        s.deliveries ++ Delivery.after s.next progress, s.next + 1⟩) := by
  cases progress with
  | going read => simp [startRead, h, Reader.after, Delivery.after, Progress.reply]
  | ended answer => simp [startRead, h, conclude_eq, Reader.after, Progress.reply]

/-- A read goes on as its port says. -/
theorem stepRead_eq_some {s s' : Session P} {choice : Choice} {id : Nat} {reply : Option Reply}
    (hs : s.Distinct) (h : s.stepRead choice id = some (reply, s')) :
    ∃ (before after : List (Reader P)) (read : P.Read) (progress : Progress P.Read P.Receipt)
        (a : Ambient) (state : P.State),
      s.readers = before ++ [⟨id, read⟩] ++ after ∧
        P.step choice read s.ambient s.state = some (progress, a, state) ∧
        reply = progress.reply ∧
        s' = ⟨a, state, before ++ Reader.after id progress ++ after,
          s.deliveries ++ Delivery.after id progress, s.next⟩ := by
  simp only [stepRead, Option.bind_eq_bind, Option.bind_eq_some_iff] at h
  rcases h with ⟨reader, hfind, ⟨progress, a, state⟩, hstep, h⟩
  rcases List.find?_eq_some_iff_append.1 hfind with ⟨hid, before, after, hreaders, -⟩
  have hid : reader.id = id := by simpa using hid
  have hnodup : ((before ++ reader :: after).map Reader.id).Nodup :=
    hreaders ▸ (List.nodup_append.1 hs.nodup).1
  subst hid
  refine ⟨before, after, reader.read, progress, a, state, by simpa using hreaders, hstep, ?_⟩
  cases progress with
  | going read =>
      rcases Prod.mk.inj (Option.some.inj h) with ⟨rfl, rfl⟩
      simp [hreaders, map_replace_key hnodup, Reader.after, Delivery.after, Progress.reply]
  | ended answer =>
      rcases Prod.mk.inj (Option.some.inj h) with ⟨rfl, rfl⟩
      simp only [conclude_eq, dropReader, hreaders]
      rw [filter_ne_key hnodup]
      simp [Reader.after, Progress.reply]

/-- A read that begins takes a turn. -/
private theorem move_startRead {s : Session P} {caller : Scope} (choice : Choice)
    (enters : D.enters s caller) : Move D s (s.startRead choice caller).2 := by
  rcases hp : P.start choice caller s.ambient s.state with ⟨progress, a, state⟩
  have hturn : P.turn choice (.outside caller) s.ambient s.state = some (progress, a, state) :=
    congrArg some hp
  have hreaders : s.readers = s.readers ++ Port.Point.readers s.next (.outside caller) ++ [] := by
    simp [Port.Point.readers]
  have hmove : Move D s _ :=
    .turns (fun c hc => ⟨Port.Point.outside.inj hc ▸ enters, rfl⟩) hreaders hturn
  rw [startRead_eq hp]
  simpa [Port.Point.next] using hmove

/-- A read that goes on takes a turn. -/
private theorem move_stepRead {s s' : Session P} {choice : Choice} {id : Nat}
    {reply : Option Reply} (hs : s.Distinct) (h : s.stepRead choice id = some (reply, s')) :
    Move D s s' := by
  rcases stepRead_eq_some hs h with
    ⟨before, after, read, progress, a, state, hreaders, hstep, -, rfl⟩
  have hturn : P.turn choice (.inside read) s.ambient s.state = some (progress, a, state) := hstep
  exact .turns (fun c hc => by simp at hc) hreaders hturn

/-- A report takes away its delivery. -/
private theorem move_report {s s' : Session P} {id : Nat} {outcome : Outcome}
    {settlement : Settlement} (hs : s.Distinct)
    (h : s.report id outcome = some (settlement, s')) : Move D s s' := by
  simp only [report, Option.bind_eq_bind, Option.bind_eq_some_iff] at h
  rcases h with ⟨delivery, hfind, h⟩
  rcases List.find?_eq_some_iff_append.1 hfind with ⟨hid, before, after, hdeliveries, -⟩
  have hid : delivery.id = id := by simpa using hid
  have hnodup : ((before ++ delivery :: after).map Delivery.id).Nodup :=
    hdeliveries ▸ (List.nodup_append.1 hs.nodup).2.1
  subst hid
  rcases Prod.mk.inj (Option.some.inj h) with ⟨-, rfl⟩
  simp only [hdeliveries]
  rw [filter_ne_key hnodup]
  exact .reports hdeliveries rfl

/-- Every step is a move. -/
theorem Step.move {s s' : Session P} (h : Step D s s') (hs : s.Distinct) : Move D s s' := by
  cases h with
  | startRead choice enters => exact move_startRead choice enters
  | stepRead h => exact move_stepRead hs h
  | report h => exact move_report hs h
  | connect enters => exact .connects enters rfl
  | close caller => exact .closes rfl
  | change own => exact .changes own
  | elapse grows => exact .elapses grows

/-- The numbers that there are after a turn are among those before it and the read's
own. -/
private theorem ids_after_subperm (id : Nat) (before after : List (Reader P))
    (deliveries : List (Delivery P)) (progress : Progress P.Read P.Receipt) :
    ((before ++ Reader.after id progress ++ after).map Reader.id ++
        (deliveries ++ Delivery.after id progress).map Delivery.id).Subperm
      (before.map Reader.id ++ id :: (after.map Reader.id ++ deliveries.map Delivery.id)) := by
  have hdrop : (before.map Reader.id ++ (after.map Reader.id ++ deliveries.map Delivery.id)).Subperm
      (before.map Reader.id ++ id :: (after.map Reader.id ++ deliveries.map Delivery.id)) :=
    ((List.Sublist.refl _).append (List.sublist_cons_self id _)).subperm
  cases progress with
  | going read => simpa [Reader.after, Delivery.after] using List.Subperm.refl _
  | ended answer =>
      cases answer with
      | delivered batch receipt =>
          have hperm : (before.map Reader.id ++ (after.map Reader.id ++
              (deliveries.map Delivery.id ++ [id]))).Perm
              (before.map Reader.id ++ id :: (after.map Reader.id ++
                deliveries.map Delivery.id)) := by
            refine .append_left _ ?_
            rw [← List.append_assoc]
            exact List.perm_append_singleton ..
          simpa [Reader.after, Delivery.after] using hperm.subperm
      | failed error => simpa [Reader.after, Delivery.after] using hdrop
      | died reason => simpa [Reader.after, Delivery.after] using hdrop

/-- Before a turn, the number of its read is its own. -/
private theorem ids_before_turn {s : Session P} (hs : s.Distinct) {point : P.Point} {id : Nat}
    {before after : List (Reader P)} (hid : ∀ caller, point = .outside caller → id = s.next)
    (hreaders : s.readers = before ++ point.readers id ++ after) :
    (before.map Reader.id ++ id :: (after.map Reader.id ++ s.deliveries.map Delivery.id)).Nodup ∧
      ∀ n ∈ before.map Reader.id ++ id :: (after.map Reader.id ++ s.deliveries.map Delivery.id),
        n < point.next s.next := by
  have hnodup := hs.nodup
  have hlt := hs.lt_next
  rw [hreaders] at hnodup hlt
  cases point with
  | outside caller =>
      obtain rfl := hid caller rfl
      simp only [Port.Point.readers, Port.Point.next, List.append_nil, List.map_append,
        List.append_assoc] at hnodup hlt ⊢
      constructor
      · rw [List.perm_middle.nodup_iff, List.nodup_cons]
        exact ⟨fun hmem => Nat.lt_irrefl _ (hlt _ hmem), hnodup⟩
      · intro n hn
        rw [List.perm_middle.mem_iff, List.mem_cons] at hn
        rcases hn with rfl | hn
        · exact Nat.lt_succ_self _
        · exact Nat.lt_succ_of_lt (hlt n hn)
  | inside read =>
      simp only [Port.Point.readers, Port.Point.next, List.map_append, List.map_cons,
        List.append_assoc, List.cons_append, List.nil_append] at hnodup hlt ⊢
      exact ⟨hnodup, hlt⟩

/-- Reads and deliveries keep numbers of their own. -/
theorem Move.distinct {s s' : Session P} (h : Move D s s') (hs : s.Distinct) : s'.Distinct := by
  cases h with
  | @turns choice point id before after progress a state enters readers turn =>
      have hfull := ids_before_turn hs (fun caller hpoint => (enters caller hpoint).2) readers
      have hsub := ids_after_subperm id before after s.deliveries progress
      refine ⟨?_, fun n hn => hfull.2 n (hsub.subset hn)⟩
      rcases hsub with ⟨rest, hperm, hsublist⟩
      exact hperm.nodup_iff.1 (hsublist.nodup hfull.1)
  | @reports delivery outcome settlement before after a state deliveries settles =>
      have hsub : (s.readers.map Reader.id ++ (before ++ after).map Delivery.id).Sublist
          (s.readers.map Reader.id ++ s.deliveries.map Delivery.id) := by
        rw [deliveries, List.map_append, List.map_append, List.map_cons]
        exact .append (.refl _) (.append (.refl _) (List.sublist_cons_self _ _))
      exact ⟨hsub.nodup hs.nodup, fun n hn => hs.lt_next n (hsub.subset hn)⟩
  | connects | closes | changes | elapses => exact ⟨hs.nodup, hs.lt_next⟩

/-- All that is reached has distinct numbers. -/
theorem Reaches.distinct {start s : Session P} (h : Reaches D start s) (hstart : start.Distinct) :
    s.Distinct := by
  induction h with
  | start => exact hstart
  | step _ hstep ih => exact (hstep.move ih).distinct ih

/-- What holds at the start and is kept by every move holds of all that is reached. -/
theorem Reaches.induct {start s : Session P} {motive : Session P → Prop}
    (h : Reaches D start s) (hstart : start.Distinct) (base : motive start)
    (move : ∀ s s', motive s → Move D s s' → motive s') : motive s := by
  induction h with
  | start => exact base
  | step hreach hstep ih => exact move _ _ ih (hstep.move (hreach.distinct hstart))

/-- A move of a steady port takes nothing back. -/
theorem Move.grows (steady : P.Steady) {s s' : Session P} (h : Move D s s') :
    s.ambient.Grows s'.ambient := by
  cases h with
  | turns enters readers turn => exact steady.turn turn
  | @reports delivery outcome settlement before after a state deliveries settles =>
      have hgrows := steady.settle delivery.receipt outcome s.ambient s.state
      rwa [settles] at hgrows
  | @connects caller result a state enters connects =>
      have hgrows := steady.connect caller s.ambient s.state
      rwa [connects] at hgrows
  | @closes caller result a state closes =>
      have hgrows := steady.close caller s.ambient s.state
      rwa [closes] at hgrows
  | changes own => exact .refl _
  | elapses grows => exact grows

/-- With one read at a time, there is no other than the one that takes a turn. -/
theorem only_reader {s : Session P} (alone : s.readers.length ≤ 1) {point : P.Point} {id : Nat}
    {before after : List (Reader P)} (enters : ∀ caller, point = .outside caller → s.readers = [])
    (readers : s.readers = before ++ point.readers id ++ after) : before = [] ∧ after = [] := by
  cases point with
  | outside caller =>
      have hnone := readers.symm.trans (enters caller rfl)
      simpa [Port.Point.readers] using hnone
  | inside read =>
      rw [readers] at alone
      simp only [Port.Point.readers, List.length_append, List.length_singleton] at alone
      exact ⟨List.length_eq_zero_iff.1 (by omega), List.length_eq_zero_iff.1 (by omega)⟩

/-- After the turn of the only read there is at most that read. -/
theorem length_readers_after (id : Nat) (progress : Progress P.Read P.Receipt) :
    ([] ++ Reader.after id progress ++ []).length ≤ 1 := by
  cases progress with
  | going read => exact Nat.le_refl _
  | ended answer => exact Nat.zero_le _

/-- If the only read goes on in the session, it does so as its port says. -/
theorem stepRead_of_only {s s' : Session P} (hs : s.Distinct) {id : Nat} {read : P.Read}
    (readers : s.readers = [⟨id, read⟩]) {choice : Choice} {reply : Option Reply}
    (h : s.stepRead choice id = some (reply, s')) :
    ∃ progress a state, P.step choice read s.ambient s.state = some (progress, a, state) ∧
      reply = progress.reply ∧
      s' = ⟨a, state, Reader.after id progress, s.deliveries ++ Delivery.after id progress,
        s.next⟩ := by
  rcases stepRead_eq_some hs h with
    ⟨before, after, read', progress, a, state, hreaders, hstep, hreply, rfl⟩
  have hone := readers.symm.trans hreaders
  have hlength := congrArg List.length hone
  simp only [List.length_append, List.length_singleton] at hlength
  obtain rfl := List.length_eq_zero_iff.1 (show before.length = 0 by omega)
  obtain rfl := List.length_eq_zero_iff.1 (show after.length = 0 by omega)
  obtain rfl : read = read' := by simpa using hone
  exact ⟨progress, a, state, hstep, hreply, by simp⟩

/-- A report takes away the delivery that it is about, and nothing else. -/
theorem report_eq_some {s s' : Session P} {id : Nat} {outcome : Outcome} {settlement : Settlement}
    (h : s.report id outcome = some (settlement, s')) :
    ∃ delivery ∈ s.deliveries, delivery.id = id ∧
      P.settle delivery.receipt outcome s.ambient s.state = (settlement, s'.ambient, s'.state) ∧
      s'.readers = s.readers ∧ s'.next = s.next ∧
      s'.deliveries = s.deliveries.filter (·.id ≠ id) := by
  simp only [report, Option.bind_eq_bind, Option.bind_eq_some_iff] at h
  rcases h with ⟨delivery, hfind, h⟩
  rcases Prod.mk.inj (Option.some.inj h) with ⟨rfl, rfl⟩
  exact ⟨delivery, List.mem_of_find?_eq_some hfind, by simpa using List.find?_some hfind, rfl, rfl,
    rfl, rfl⟩

/-- Connecting the session connects its port. -/
theorem connect_eq {s s' : Session P} {caller : Scope} {result : Except ReadError Unit}
    (h : s.connect caller = (result, s')) :
    P.connect caller s.ambient s.state = (result, s'.ambient, s'.state) := by
  rcases Prod.mk.inj h with ⟨rfl, rfl⟩
  rfl

/-- Closing the session closes its port. -/
theorem close_eq {s s' : Session P} {caller : Scope} {result : Except ReadError Unit}
    (h : s.close caller = (result, s')) :
    P.close caller s.ambient s.state = (result, s'.ambient, s'.state) := by
  rcases Prod.mk.inj h with ⟨rfl, rfl⟩
  rfl

/-- A read goes on in the session if its port has a step for it, and is told how it ends. -/
theorem exists_stepRead {s : Session P} (hs : s.Distinct) {reader : Reader P}
    (hmem : reader ∈ s.readers) {choice : Choice} {progress : Progress P.Read P.Receipt}
    {a : Ambient} {state : P.State}
    (hstep : P.step choice reader.read s.ambient s.state = some (progress, a, state)) :
    ∃ s', s.stepRead choice reader.id = some (progress.reply, s') := by
  have hfind : s.readers.find? (·.id = reader.id) = some reader :=
    find?_key_eq_some (List.nodup_append.1 hs.nodup).1 hmem
  cases progress with
  | going read => simp [stepRead, hfind, hstep, Progress.reply]
  | ended answer =>
      cases answer <;> simp [stepRead, hfind, hstep, Progress.reply, conclude, Answer.reply]

/-- If a read cannot go on in the session, its port has no step for it. -/
theorem step_eq_none {s : Session P} (hs : s.Distinct) {reader : Reader P}
    (hmem : reader ∈ s.readers) {choice : Choice} (h : s.stepRead choice reader.id = none) :
    P.step choice reader.read s.ambient s.state = none := by
  cases hstep : P.step choice reader.read s.ambient s.state with
  | none => rfl
  | some result =>
      rcases exists_stepRead hs hmem hstep with ⟨s', hstepped⟩
      cases h.symm.trans hstepped

/-- If the only read cannot go on in the session, its port has no step for it. -/
theorem step_eq_none_of_only {s : Session P} {reader : Reader P} (readers : s.readers = [reader])
    {choice : Choice} (h : s.stepRead choice reader.id = none) :
    P.step choice reader.read s.ambient s.state = none := by
  cases hstep : P.step choice reader.read s.ambient s.state with
  | none => rfl
  | some result =>
      rcases result with ⟨progress, a, state⟩
      cases progress <;> simp [stepRead, readers, hstep] at h

end Session

end Redelivery
