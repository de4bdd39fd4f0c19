import Redelivery.Layer

/-!
# What a layer is towards the port inside

Two things happen in a layer that have little to do with each other.  Towards its users it
keeps a backlog, counts what is pending, and tags what it hands out.  Towards the port inside
it asks, connects, closes, passes on success, and holds back the end; for this it needs to know
how much is pending, and otherwise nothing of the first.

The second is taken apart here, as operations on a state of its own.  What the layer does is
what it finds inside, handed on.

Main definitions:

* `Layer.Inside`: what a layer knows of the port inside, with that port's state.
* `Layer.Inside.find`, `Layer.Inside.connect`, `Layer.Inside.close`, `Layer.Inside.settle`: the
  operations.
* `Layer.handOn`: how a layer hands on what a read has found.

Main results:

* Theorem `Layer.step_eq`: a step of a read hands on what it finds.
* Theorems `Layer.connect_eq`, `Layer.close_eq`, `Layer.settle_inside`: the other operations
  are those inside.
-/

namespace Redelivery
namespace Layer

variable {P : Port}

/-- What a layer knows of the port inside: whether it has ended, and its state. -/
structure Inside (P : Port) where
  inputClosed : Bool
  inner : P.State

/-- What a read has found inside, or how it goes on. -/
abbrev Finding (P : Port) := Progress (Reading P) P.Receipt × Ambient × Inside P

/-- What the layer knows of the port inside. -/
def inside (layer : Layer P) : Inside P := ⟨layer.inputClosed, layer.inner⟩

/-- The layer that knows this of the port inside. -/
def withInside (layer : Layer P) (s : Inside P) : Layer P :=
  { layer with inputClosed := s.inputClosed, inner := s.inner }

/-- The scope of a read. -/
def Reading.scope : Reading P → Scope
  | .armed scope | .asking scope _ | .pacing _ scope _ _ | .draining scope _ => scope

/-- The read has to do with the port inside, and not with the backlog. -/
def Reading.Inward : Reading P → Prop
  | .pacing _ _ _ _ => False
  | _ => True

namespace Inside

/-- The port inside has ended: the read ends, too, or holds this back. -/
def drain (settings : Settings) (pending : Int) (scope : Scope) (a : Ambient) (s : Inside P) :
    Finding P :=
  if pending ≤ 0 then (.ended (.failed .closed), a, s)
  else
    (.going (.draining scope (a.now + settings.drainPoll.clockMillis)), a,
      { s with inputClosed := true })

/-- What the port inside has come to. -/
def hear (settings : Settings) (pending : Int) (scope : Scope) (s : Inside P) :
    Progress P.Read P.Receipt × Ambient × P.State → Finding P
  | (.going read, a, inner) => (.going (.asking scope read), a, { s with inner })
  | (.ended (.failed .closed), a, inner) => drain settings pending scope a { s with inner }
  | (.ended answer, a, inner) => (.ended answer, a, { s with inner })

/-- A step of a read that has to do with the port inside. -/
def find (settings : Settings) (choice : Choice) (pending : Int) (read : Reading P) (a : Ambient)
    (s : Inside P) : Option (Finding P) :=
  match read with
  | .armed scope =>
      if s.inputClosed then some (drain settings pending scope a s)
      else some (hear settings pending scope s (P.start choice scope a s.inner))
  | .asking scope read =>
      (P.step choice read a s.inner).map (hear settings pending scope s)
  | .pacing _ _ _ _ => none
  | .draining scope due =>
      (choice.waited (a.scopes.IsCancelled scope) (due ≤ a.now)).map fun cancelled =>
        if cancelled then (.ended (.failed .timeout), a, s)
        else drain settings pending scope a s

/-- Connects the port inside; its end is held back while batches are pending. -/
def connect (pending : Int) (caller : Scope) (a : Ambient) (s : Inside P) :
    Except ReadError Unit × Ambient × Inside P :=
  let (result, a, inner) := P.connect caller a s.inner
  match result with
  | .error .closed =>
      if 0 < pending then (.ok (), a, ⟨true, inner⟩) else (.error .closed, a, { s with inner })
  | result => (result, a, { s with inner })

/-- Closes the port inside. -/
def close (caller : Scope) (a : Ambient) (s : Inside P) :
    Except ReadError Unit × Ambient × Inside P :=
  let (result, a, inner) := P.close caller a s.inner
  (result, a, { s with inner })

/-- Passes on success. -/
def settle (receipt : P.Receipt) (a : Ambient) (s : Inside P) : Settlement × Ambient × Inside P :=
  let (settlement, a, inner) := P.settle receipt .processed a s.inner
  (settlement, a, { s with inner })

/-- When a blocked read that has to do with the port inside can go on by itself. -/
def wake (read : Reading P) (s : Inside P) : Option Nat :=
  match read with
  | .armed _ | .pacing _ _ _ _ => none
  | .asking _ read => P.wake read s.inner
  | .draining _ due => some due

/-- The end is told only when nothing is pending. -/
theorem connect_closed {pending : Int} {caller : Scope} {a : Ambient} {s : Inside P}
    (h : (s.connect pending caller a).1 = .error .closed) : pending ≤ 0 := by
  unfold connect at h
  split at h
  split at h
  case h_1 =>
    split at h
    case isTrue => cases h
    case isFalse hpending => exact Int.not_lt.1 hpending
  case h_2 hother => exact absurd h (hother ·)

end Inside

/-! ## The layer -/

/-- A result inside as one of the layer. -/
def within {α : Type} (layer : Layer P) : α × Ambient × Inside P → α × Ambient × Layer P
  | (result, a, s) => (result, a, layer.withInside s)

/-- Hands on what a read has found: a batch is counted and delivered, and other answers end the
read. -/
def handOn (settings : Settings) (scope : Scope) (layer : Layer P) :
    Finding P → Going P × Ambient × Layer P
  | (.going read, a, s) => (.going read, a, layer.withInside s)
  | (.ended (.delivered batch receipt), a, s) =>
      deliver scope (.fresh batch receipt settings.backoff) a
        { layer.withInside s with pending := layer.pending + 1 }
  | (.ended (.failed error), a, s) => finish scope (.failed error) a (layer.withInside s)
  | (.ended (.died reason), a, s) => finish scope (.died reason) a (layer.withInside s)

/-- A single part is handed out as it is. -/
theorem deliver_single (entry : Entry P.Receipt) (single : entry.batch.length = 1) (scope : Scope)
    (a : Ambient) (layer : Layer P) : deliver scope entry a layer =
      (.ended (.delivered entry.batch ⟨entry, none⟩), a.cancel scope, layer) := by
  simp [deliver, finish, single]

/-- Other batches are handed out tagged. -/
theorem deliver_several (entry : Entry P.Receipt) (several : entry.batch.length ≠ 1)
    (scope : Scope) (a : Ambient) (layer : Layer P) : deliver scope entry a layer =
      (.ended (.delivered (Group.tag ⟨a.mint.groups, entry.batch.length⟩ entry.batch)
          ⟨entry, some ⟨a.mint.groups, entry.batch.length⟩⟩),
        Ambient.cancel { a with mint := { a.mint with groups := a.mint.groups + 1 } } scope,
        layer) := by
  simp [deliver, finish, several, Mint.track]

theorem drain_eq (settings : Settings) (scope : Scope) (a : Ambient) (layer : Layer P)
    (s : Inside P) : drain settings scope a (layer.withInside s) =
      layer.handOn settings scope (s.drain settings layer.pending scope a) := by
  by_cases h : layer.pending ≤ 0 <;> simp [drain, Inside.drain, handOn, withInside, h]

theorem asked_eq (settings : Settings) (scope : Scope) (layer : Layer P)
    (found : Progress P.Read P.Receipt × Ambient × P.State) :
    asked settings scope found layer =
      layer.handOn settings scope (layer.inside.hear settings layer.pending scope found) := by
  rcases found with ⟨progress, a, inner⟩
  cases progress with
  | going read => rfl
  | ended answer =>
      cases answer with
      | delivered batch receipt | died reason => rfl
      | failed error =>
          cases error with
          | closed => exact drain_eq settings scope a layer { layer.inside with inner }
          | _ => rfl

/-- A step of a read that has to do with the port inside hands on what it finds there. -/
theorem step_eq {settings : Settings} {choice : Choice} {read : Reading P} (inward : read.Inward)
    (a : Ambient) (layer : Layer P) : step settings choice read a layer =
      (layer.inside.find settings choice layer.pending read a).map
        (layer.handOn settings read.scope) := by
  cases read with
  | armed scope =>
      have hflag : layer.inside.inputClosed = layer.inputClosed := rfl
      by_cases h : layer.inputClosed = true
      · simp only [step, Inside.find, hflag, if_pos h, Option.map_some]
        exact congrArg some (drain_eq settings scope a layer layer.inside)
      · simp only [step, Inside.find, hflag, if_neg h, Option.map_some]
        exact congrArg some (asked_eq settings scope layer _)
  | asking scope read =>
      simp only [step, Inside.find, Option.map_map]
      refine congrArg (Option.map · _) (funext fun found => asked_eq settings scope layer found)
  | pacing => exact inward.elim
  | draining scope due =>
      simp only [step, Inside.find, Option.map_map]
      refine congrArg (Option.map · _) (funext fun cancelled => ?_)
      cases cancelled with
      | true => rfl
      | false => exact drain_eq settings scope a layer layer.inside

/-- A read whose scope was just armed is not blocked. -/
theorem step_armed_isSome (settings : Settings) (choice : Choice) (scope : Scope) (a : Ambient)
    (layer : Layer P) : (step settings choice (.armed scope) a layer).isSome := by
  by_cases h : layer.inputClosed = true <;> simp [step, h]

theorem wake_eq {read : Reading P} (inward : read.Inward) (layer : Layer P) :
    wake read layer = layer.inside.wake read := by
  cases read with
  | pacing => exact inward.elim
  | armed | asking | draining => rfl

/-- A read begins with an empty backlog as its scope is armed. -/
theorem start_eq {settings : Settings} {choice : Choice} {caller : Scope} {layer : Layer P}
    (empty : layer.backlog.entries = []) (a : Ambient) :
    start settings choice caller a layer =
      (.going (.armed (a.childScope caller).1), (a.childScope caller).2,
        { layer with backlog := ⟨[], (a.childScope caller).1⟩ }) := by
  simp [start, Backlog.takeOrArm, empty]

theorem connect_eq (caller : Scope) (a : Ambient) (layer : Layer P) :
    connect caller a layer = layer.within (layer.inside.connect layer.pending caller a) := by
  rcases hconnect : P.connect caller a layer.inner with ⟨result, b, inner⟩
  by_cases hclosed : result = .error .closed
  · by_cases hpending : 0 < layer.pending <;>
      simp [connect, Inside.connect, inside, within, withInside, hconnect, hclosed, hpending]
  · simp only [connect, Inside.connect, inside, hconnect]
    rfl

theorem close_eq (caller : Scope) (a : Ambient) (layer : Layer P) :
    close caller a layer = layer.within (layer.inside.close caller a) := rfl

/-- Success is passed on, and counted. -/
theorem settle_inside (held : Held P.Receipt) (a : Ambient) (layer : Layer P) :
    settle held .processed a layer =
      ({ layer with pending := layer.pending - 1 } : Layer P).within
        (layer.inside.settle held.entry.receipt a) := rfl

end Layer
end Redelivery
