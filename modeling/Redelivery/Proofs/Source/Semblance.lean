import Redelivery.Proofs.Stack.Semblance
import Redelivery.Source.Memory
import Redelivery.Source.Script

/-!
# No source looks at numbers

To a source in memory, and to one that follows a script, a scope is something that is cancelled or
not, and a part is something to hand out.  So both do alike what they are asked to do alike.

Main definitions:

* `Memory.semblance`, `Script.semblance`: the states, reads and receipts that are alike.

Main results:

* Theorems `Memory.sound_semblance`, `Script.sound_semblance`: what is alike stays so.
* Theorems `Memory.fair_push`, `Memory.fair_closeInput`: so it does when a source is pushed into,
  or its input is closed.
-/

namespace Redelivery

/-! ## Sources in memory -/

namespace Memory

/-- Both sources hold the same batches, but for tags, and agree in everything else. -/
def Like (l : Likeness) (m m' : Memory) : Prop :=
  ∃ batches, m' = { m with batches } ∧
    List.Forall₂ (fun x y => x.1 = y.1 ∧ Batch.Like l.groups x.2 y.2) m.batches batches

/-- Both reads are at the same place, in scopes that are known to be alike. -/
inductive Reading.Like (l : Likeness) : Reading → Reading → Prop
  | looking {x y : Scope} (known : (x, y) ∈ l.scopes) : Like l (.looking x) (.looking y)
  | pausing {x y : Scope} (known : (x, y) ∈ l.scopes) : Like l (.pausing x) (.pausing y)
  | waiting {x y : Scope} (known : (x, y) ∈ l.scopes) (waiter : Nat) :
      Like l (.waiting x waiter) (.waiting y waiter)

/-- The sources that are alike, with their reads and receipts. -/
def semblance : Semblance port where
  State := Like
  Read := Reading.Like
  Receipt _ := Eq

variable {l l' : Likeness} {m m' : Memory} {x y : Scope}

theorem Like.mono (h : Like l m m') (grows : l.Grows l') : Like l' m m' := by
  rcases h with ⟨batches, rfl, hbatches⟩
  rcases grows.groups with ⟨more, heq⟩
  rw [Like, ← heq]
  exact ⟨batches, rfl, hbatches.imp fun _ _ like => ⟨like.1, like.2.append more⟩⟩

/-- Both sources wake the same reader. -/
theorem Like.notify (h : Like l m m') : Like l m.notify m'.notify := by
  rcases h with ⟨batches, rfl, hbatches⟩
  unfold Memory.notify
  cases m.waiting with
  | nil => exact ⟨batches, rfl, hbatches⟩
  | cons reader rest => exact ⟨batches, rfl, hbatches⟩

/-- What has become of a read in sources that are alike. -/
abbrev Goes (l : Likeness) (f g : Going × Memory) : Prop :=
  Like l f.2 g.2 ∧ f.1.Like l.groups (Reading.Like l) Eq g.1

/-- Both sources find the same. -/
theorem Like.look (h : Like l m m') (known : (x, y) ∈ l.scopes) :
    Goes l (Memory.look x m) (Memory.look y m') := by
  rcases h with ⟨batches, rfl, hbatches⟩
  unfold Memory.look
  split
  case isTrue => exact ⟨⟨batches, rfl, hbatches⟩, .ended (.failed .closed)⟩
  case isFalse =>
    rcases m with ⟨_, next, inputClosed⟩
    cases hbatches with
    | nil =>
        dsimp only
        split
        case isTrue => exact ⟨⟨_, rfl, .nil⟩, .ended (.failed .closed)⟩
        case isFalse => exact ⟨⟨_, rfl, .nil⟩, .going (.pausing known)⟩
    | @cons p q _ _ like rest =>
        rcases p with ⟨number, batch⟩
        rcases q with ⟨_, batch'⟩
        obtain rfl : number = _ := like.1
        refine ⟨⟨_, rfl, rest⟩, .ended (.delivered like.2 ?_)⟩
        exact congrArg (Receipt.mk number) like.2.texts_eq

/-- Both reads begin to wait, or neither does. -/
theorem Like.pause (h : Like l m m') (known : (x, y) ∈ l.scopes) (choice : Choice)
    (cancelled : Bool) :
    Goes l (Memory.pause choice x cancelled m) (Memory.pause choice y cancelled m') := by
  rcases h with ⟨batches, rfl, hbatches⟩
  unfold Memory.pause
  split
  case isTrue => exact ⟨⟨batches, rfl, hbatches⟩, .going (.looking known)⟩
  case isFalse =>
    split
    case isTrue => exact ⟨⟨batches, rfl, hbatches⟩, .ended (.failed .cancelled)⟩
    case isFalse => exact ⟨⟨batches, rfl, hbatches⟩, .going (.waiting known _)⟩

/-- Both reads go on after a wake-up, or give up waiting, or neither does. -/
theorem Like.resume (h : Like l m m') (known : (x, y) ∈ l.scopes) (choice : Choice) (waiter : Nat)
    (cancelled : Bool) : Option.Rel (Goes l) (Memory.resume choice x waiter cancelled m)
      (Memory.resume choice y waiter cancelled m') := by
  rcases h with ⟨batches, rfl, hbatches⟩
  have hrest : Like l
      { m with woken := m.woken.filter (· ≠ waiter), waiting := m.waiting.filter (· ≠ waiter) }
      { m with
        batches
        woken := m.woken.filter (· ≠ waiter)
        waiting := m.waiting.filter (· ≠ waiter) } := ⟨batches, rfl, hbatches⟩
  unfold Memory.resume
  dsimp only
  split
  case isTrue => exact .some ⟨hrest, .going (.looking known)⟩
  case isFalse =>
    split
    case isFalse => exact .none
    case isTrue =>
      refine .some ⟨?_, .ended (.failed .cancelled)⟩
      dsimp only
      split
      case isTrue => exact hrest.notify
      case isFalse => exact hrest

/-- Both sources are connected with the same result. -/
theorem Like.connect (h : Like l m m') (a b : Ambient) (x y : Scope) :
    semblance.Results l a b (Memory.connect x a m) (Memory.connect y b m') := by
  rcases h with ⟨batches, rfl, hbatches⟩
  have hempty : m.batches.isEmpty = batches.isEmpty := by
    generalize m.batches = before at hbatches ⊢
    cases hbatches with
    | nil | cons => rfl
  unfold Memory.connect
  simp only [hempty]
  split
  case isTrue => exact ⟨l, .nothing l a b, ⟨batches, rfl, hbatches⟩, rfl⟩
  case isFalse =>
    split
    case isTrue => exact ⟨l, .nothing l a b, ⟨batches, rfl, hbatches⟩, rfl⟩
    case isFalse => exact ⟨l, .nothing l a b, ⟨batches, rfl, hbatches⟩, rfl⟩

/-- A source in memory does alike what it is asked to do alike. -/
theorem sound_semblance : semblance.Sound where
  state_mono grows like := like.mono grows
  read_mono grows like := by
    cases like with
    | looking known => exact .looking (grows.scopes known)
    | pausing known => exact .pausing (grows.scopes known)
    | waiting known waiter => exact .waiting (grows.scopes known) waiter
  receipt_mono _ like := like
  start choice like _ known := by
    rcases like with ⟨batches, rfl, hbatches⟩
    exact ⟨_, .nothing _ _ _, ⟨batches, rfl, hbatches⟩, .going (.looking known)⟩
  step choice like alike read := by
    cases read with
    | looking known =>
        rcases like.look known with ⟨hlike, hgoing⟩
        exact .some ⟨_, .nothing _ _ _, hlike, hgoing⟩
    | @pausing x y known =>
        have hcancelled := alike.cancelled _ known
        rcases like.pause known choice _ with ⟨hlike, hgoing⟩
        simp only [port, step, hcancelled]
        exact .some ⟨_, .nothing _ _ _, hlike, hgoing⟩
    | waiting known waiter =>
        simp only [port, step, alike.cancelled _ known]
        exact rel_map (like.resume known choice waiter _) fun f g goes =>
          ⟨_, .nothing _ _ _, goes.1, goes.2⟩
  wake _ _ := rfl
  connect {l a b m m' x y} like _ _ := Like.connect like a b x y
  close {l a b m m' x y} like _ _ := by
    rcases like with ⟨batches, rfl, hbatches⟩
    have hlike : Like l { m with shutDown := true } { m with batches, shutDown := true } :=
      ⟨batches, rfl, hbatches⟩
    exact ⟨_, .nothing _ _ _, hlike.notify, rfl⟩
  settle like _ receipt := by
    rcases like with ⟨batches, rfl, hbatches⟩
    subst receipt
    exact ⟨_, .nothing _ _ _, ⟨batches, rfl, hbatches⟩, rfl⟩

/-- A source in memory does not look at what is pushed into it. -/
theorem fair_push : semblance.Fair fun batch m => m.push batch := by
  intro l batch batch' m m' like h
  rcases h with ⟨batches, rfl, hbatches⟩
  have hlike : Like l (m.add batch) (add { m with batches } batch') :=
    ⟨_, rfl, List.rel_append hbatches (.cons ⟨rfl, like⟩ .nil)⟩
  exact hlike.notify

/-- Closing the input does not look at anything. -/
theorem fair_closeInput : semblance.Fair fun _ m => m.closeInput := by
  intro l _ _ m m' _ h
  rcases h with ⟨batches, rfl, hbatches⟩
  have hlike : Like l { m with inputClosed := true } { m with batches, inputClosed := true } :=
    ⟨batches, rfl, hbatches⟩
  exact hlike.notify

/-- An empty source is like itself. -/
theorem like_empty (l : Likeness) : semblance.State l empty empty := ⟨[], rfl, .nil⟩

end Memory

/-! ## Sources that follow a script -/

/-- Batches of parts that were just made are alike, and as many contents were made for them. -/
theorem Mint.batch_like (groups : List Bool) (contents : List (List UInt8)) {mint mint' : Mint}
    (h : mint.contents = mint'.contents) :
    Batch.Like groups (mint.batch contents).1 (mint'.batch contents).1 ∧
      (mint.batch contents).2 = { mint with contents := mint.contents + contents.length } := by
  induction contents generalizing mint mint' with
  | nil => exact ⟨.nil, rfl⟩
  | cons bytes rest ih =>
      have hnext : (mint.part bytes).2.contents = (mint'.part bytes).2.contents :=
        congrArg (· + 1) h
      rcases ih hnext with ⟨hbatch, hmint⟩
      refine ⟨.cons ?_ hbatch, ?_⟩
      · simp only [h]
        exact Part.Like.untagged _ _
      · refine hmint.trans ?_
        simp [Mint.part, Nat.add_assoc, Nat.add_comm 1]

namespace Script

/-- Both reads are at the same place, in scopes that are known to be alike. -/
inductive Reading.Like (l : Likeness) : Reading → Reading → Prop
  | turning {x y : Scope} (known : (x, y) ∈ l.scopes) : Like l (.turning x) (.turning y)
  | delayed {x y : Scope} (known : (x, y) ∈ l.scopes) (place : Nat) (find : Find) (due : Nat) :
      Like l (.delayed x place find due) (.delayed y place find due)
  | stalled {x y : Scope} (known : (x, y) ∈ l.scopes) : Like l (.stalled x) (.stalled y)

/-- The sources that are alike, with their reads and receipts. -/
def semblance : Semblance port where
  State _ := Eq
  Read := Reading.Like
  Receipt _ := Eq

/-- Both sources find the same. -/
theorem found_like {l : Likeness} {a b : Ambient} (alike : Ambient.Alike l a b) (place : Nat)
    (find : Find) (s : Script) :
    semblance.Turns l a b (found place find a s) (found place find b s) := by
  cases find with
  | error error => exact ⟨l, .nothing _ _ _, rfl, .ended (.failed error)⟩
  | die => exact ⟨l, .nothing _ _ _, rfl, .ended (.died _)⟩
  | batch contents response =>
      rcases Mint.batch_like l.groups contents alike.contents_eq with ⟨hbatch, hleft⟩
      rcases Mint.batch_like l.groups contents alike.contents_eq.symm with ⟨-, hright⟩
      refine ⟨l, ?_, rfl, .ended (.delivered hbatch rfl)⟩
      simp only [found, hleft, hright]
      exact .mints l a b contents.length

/-- A source that follows a script does alike what it is asked to do alike. -/
theorem sound_semblance : semblance.Sound where
  state_mono _ like := like
  read_mono grows like := by
    cases like with
    | turning known => exact .turning (grows.scopes known)
    | delayed known place find due => exact .delayed (grows.scopes known) place find due
    | stalled known => exact .stalled (grows.scopes known)
  receipt_mono _ like := like
  start choice like _ known := by
    cases like
    exact ⟨_, .nothing _ _ _, rfl, .going (.turning known)⟩
  step {l a b s t p q} choice like alike read := by
    cases like
    cases read with
    | turning known =>
        simp only [port, step]
        cases s.items[s.used]? with
        | none => exact .some ⟨_, .nothing _ _ _, rfl, .going (.stalled known)⟩
        | some item =>
            dsimp only
            cases item.delay with
            | none => exact .some (found_like alike _ _ s)
            | some delay =>
                rw [alike.now_eq]
                exact .some ⟨_, .nothing _ _ _, rfl, .going (.delayed known _ _ _)⟩
    | @delayed x y known place find due =>
        simp only [port, step, alike.cancelled _ known, alike.now_eq]
        cases choice.waited (decide (b.scopes.IsCancelled y)) (decide (due ≤ b.now)) with
        | none => exact .none
        | some cancelled =>
            refine .some ?_
            cases cancelled with
            | true => exact ⟨_, .nothing _ _ _, rfl, .ended (.failed .cancelled)⟩
            | false => exact found_like alike place find s
    | stalled known =>
        simp only [port, step, alike.cancelled _ known]
        split
        case isTrue => exact .some ⟨_, .nothing _ _ _, rfl, .ended (.failed .cancelled)⟩
        case isFalse => exact .none
  wake like read := by
    cases like
    cases read with
    | turning | delayed | stalled => rfl
  connect like _ _ := by
    cases like
    exact ⟨_, .nothing _ _ _, rfl, rfl⟩
  close like _ _ := by
    cases like
    exact ⟨_, .nothing _ _ _, rfl, rfl⟩
  settle like _ receipt := by
    cases like
    cases receipt
    exact ⟨_, .nothing _ _ _, rfl, rfl⟩

end Script
end Redelivery
