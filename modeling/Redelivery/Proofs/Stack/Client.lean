import Redelivery.Proofs.Session.Reach
import Redelivery.Proofs.Stack.Semblance
import Redelivery.Stack

/-!
# Clients of a stack

A client reads from a stack, one batch at a time.  What it does is a script: it opens and cancels
scopes, connects, reads and closes in them, reports on what was delivered in terms of the parts
that it was given, makes parts of its own and tracks parts, changes the source, and waits.  Reads
take turns in between, at any time.

Two clients that follow the same script cannot be told from each other if they are told the same
at the same time, if the outermost layers look the same from outside, and if the same has passed
between the source and the stack.  The one with more layers may need some more turns, in which
nothing happens that anybody could notice, before a read reaches the source.

Main definitions:

* `Appraisal`, `Deed`, `Word`: what a client reports, what it does, and what it is told.
* `Client`, `Client.does`, `Client.turn`: a client of a stack, and what becomes of it.
* `Client.sight`: what can be seen of a client and of the source.
* `Client.Indistinguishable`: a relation between clients that nobody can tell from each other.
* `Client.Reaches`, `Client.Level`: what can come of a client, and that all its layers agree.
-/

namespace Redelivery

/-! ## Scripts -/

/-- What a client reports on a delivery.  Failures name parts, by their places among those that
the client has. -/
inductive Appraisal where
  | processed
  | whole (reason : String)
  | parts (cause : String) (errors : List (Nat × Option String))

/-- What a client does.  Scopes and parts are named by their places among those that it has. -/
inductive Deed (P : Port) where
  /-- Opens a scope inside no other. -/
  | opens
  | opensIn (scope : Nat)
  | cancels (scope : Nat)
  | connects (scope : Nat)
  | closes (scope : Nat)
  | reads (choice : Choice) (scope : Nat)
  | reports (delivery : Nat) (appraisal : Appraisal)
  /-- Makes a part of its own. -/
  | makes (bytes : List UInt8)
  /-- Tracks some parts, and keeps the copies. -/
  | tracks (places : List Nat)
  /-- Changes the source, with a batch of some parts. -/
  | changes (change : Batch → P.State → P.State) (places : List Nat)
  | waits (ms : Nat)

/-- A deed that does not look at numbers: only changes of the source could. -/
def Deed.Fair {P : Port} (σ : Semblance P) : Deed P → Prop
  | .changes change _ => σ.Fair change
  | _ => True

/-- What a client is told. -/
inductive Word where
  | nothing
  | told (answer : Told)
  | result (result : Except ReadError Unit)
  | settled (settlement : Settlement)

/-- The parts at some places. -/
def Batch.pick (parts : Batch) (places : List Nat) : Batch :=
  places.filterMap fun place => parts[place]?

/-- What is reported, in terms of the parts that the client has. -/
def Appraisal.outcome (parts : Batch) : Appraisal → Outcome
  | .processed => .processed
  | .whole reason => .failed (.whole reason)
  | .parts cause errors => .failed <| .parts
      ⟨cause, errors.filterMap fun (place, error) => parts[place]?.map fun part => (part, error)⟩

/-- The parts that come with a reply. -/
def Reply.parts : Reply → Batch
  | .delivered batch => batch
  | _ => []

/-- What a reply tells. -/
def Reply.told : Reply → Told
  | .delivered batch => .delivered (batch.map Part.content)
  | .failed error => .failed error
  | .died reason => .died reason

/-- What is told of a read: nothing before it ends. -/
def Word.of : Option Reply → Word
  | none => .nothing
  | some reply => .told reply.told

/-! ## Clients -/

/-- A client of an outermost layer with given layers inside, around a source with a journal. -/
structure Client (P : Port) (settings : Settings) (inner : List Settings) where
  session : Session (Layer.port settings (Stack.port P.recorded inner))
  /-- The scopes that the client has opened. -/
  scopes : List Scope
  /-- The parts that it has been given or has made. -/
  parts : Batch

/-- What can be seen: the time and the time at which a blocked read goes on, a look at the
outermost layer, but for whether the source has ended, and what has passed between the source and
its user. -/
structure Sight where
  now : Nat
  wake : Option Nat
  look : Stats
  calls : List Call

namespace Client

variable {P : Port} {settings : Settings} {inner : List Settings}

/-- A client of a new stack around a source, which may have been prepared at any time. -/
def start (settings : Settings) (inner : List Settings) (source : P.State) (prepared : Ambient) :
    Client P settings inner :=
  let stack := Stack.new (P := P.recorded) ⟨[], source⟩ (settings :: inner)
    { prepared with scopes := .empty }
  ⟨.new stack.2 stack.1, [], []⟩

/-- The client once the scopes, the clock and the mint have changed. -/
def withAmbient (c : Client P settings inner) (ambient : Ambient) : Client P settings inner :=
  { c with session := { c.session with ambient } }

/-- The client takes what a read has come to. -/
def take (c : Client P settings inner)
    (reply : Option Reply)
    (session : Session (Layer.port settings (Stack.port P.recorded inner))) :
    Word × Client P settings inner :=
  (.of reply, { c with session, parts := c.parts ++ (reply.map Reply.parts).getD [] })

/-- The client once the source has changed, with a batch of the parts at some places. -/
def changed (c : Client P settings inner) (change : Batch → P.State → P.State)
    (places : List Nat) : Client P settings inner :=
  let source (s : Recorded P) : Recorded P := ⟨s.journal, change (c.parts.pick places) s.state⟩
  { c with session := c.session.change fun layer =>
      { layer with inner := Stack.update source inner layer.inner } }

/-- Does one thing; `none` if it cannot be done.  Only one read goes on at a time. -/
def does (c : Client P settings inner) : Deed P → Option (Word × Client P settings inner)
  | .opens =>
      let (scope, ambient) := c.session.ambient.freshScope
      some (.nothing, { c.withAmbient ambient with scopes := c.scopes ++ [scope] })
  | .opensIn place => c.scopes[place]?.map fun outer =>
      let (scope, ambient) := c.session.ambient.childScope outer
      (.nothing, { c.withAmbient ambient with scopes := c.scopes ++ [scope] })
  | .cancels place => c.scopes[place]?.map fun scope =>
      (.nothing, c.withAmbient (c.session.ambient.cancel scope))
  | .connects place => c.scopes[place]?.map fun scope =>
      let (result, session) := c.session.connect scope
      (.result result, { c with session })
  | .closes place => c.scopes[place]?.map fun scope =>
      let (result, session) := c.session.close scope
      (.result result, { c with session })
  | .reads choice place =>
      if c.session.readers.isEmpty then
        c.scopes[place]?.map fun scope =>
          let (reply, session) := c.session.startRead choice scope
          c.take reply session
      else none
  | .reports delivery appraisal =>
      (c.session.report delivery (appraisal.outcome c.parts)).map fun (settlement, session) =>
        (.settled settlement, { c with session })
  | .makes bytes =>
      let (part, mint) := c.session.ambient.mint.part bytes
      some (.nothing,
        { c.withAmbient { c.session.ambient with mint } with parts := c.parts ++ [part] })
  | .tracks places =>
      let (_, copies, mint) := c.session.ambient.mint.track (c.parts.pick places)
      some (.nothing,
        { c.withAmbient { c.session.ambient with mint } with parts := c.parts ++ copies })
  | .changes change places => some (.nothing, c.changed change places)
  | .waits ms => some (.nothing, { c with session := c.session.advance ms })

/-- The read takes a turn; `none` if there is none, or it is blocked. -/
def turn (c : Client P settings inner) (choice : Choice) :
    Option (Word × Client P settings inner) :=
  c.session.readers.head?.bind fun reader =>
    (c.session.stepRead choice reader.id).map fun (reply, session) => c.take reply session

/-- What can be seen. -/
def sight (c : Client P settings inner) : Sight where
  now := c.session.ambient.now
  wake := c.session.wake?
  look := { c.session.state.stats with sourceClosed := false }
  calls := (Stack.base (P := P.recorded) inner c.session.state.inner).journal.calls

/-! ## What nobody can tell -/

variable {inner' : List Settings}

/-- Both clients are told the same, and cannot be told from each other after that. -/
def Together (R : Nat → Client P settings inner → Client P settings inner' → Prop)
    (x : Word × Client P settings inner) (y : Word × Client P settings inner') : Prop :=
  x.1 = y.1 ∧ ∃ m, R m x.2 y.2

/-- Clients that are related cannot be told from each other: they look the same, and whatever they
do, and however their reads go on, they are told the same.  A read of the first one may be some
turns behind; then it takes these turns, whatever chance decides, and nobody notices. -/
structure Indistinguishable (σ : Semblance P)
    (R : Nat → Client P settings inner → Client P settings inner' → Prop) : Prop where
  sight : ∀ {m c d}, R m c d → c.sight = d.sight
  does : ∀ {m c d}, R m c d → ∀ deed : Deed P, deed.Fair σ →
    Option.Rel (Together R) (c.does deed) (d.does deed)
  turn : ∀ {c d}, R 0 c d → ∀ choice, Option.Rel (Together R) (c.turn choice) (d.turn choice)
  behind : ∀ {m c d}, R (m + 1) c d → ∀ choice,
    (d.turn choice).isSome ∧ ∃ c', c.turn choice = some (.nothing, c') ∧ R m c' d

/-- What can come of a client. -/
inductive Reaches (σ : Semblance P) (start : Client P settings inner) :
    Client P settings inner → Prop
  | start : Reaches σ start start
  | does {c c' : Client P settings inner} {deed : Deed P} {word : Word}
      (before : Reaches σ start c) (fair : deed.Fair σ) (h : c.does deed = some (word, c')) :
      Reaches σ start c'
  | turn {c c' : Client P settings inner} {choice : Choice} {word : Word}
      (before : Reaches σ start c) (h : c.turn choice = some (word, c')) : Reaches σ start c'

/-- All layers agree on what is pending, and only the outermost one has anything to deliver
again. -/
def Level (c : Client P settings inner) : Prop :=
  ∀ look ∈ Stack.stats inner c.session.state.inner,
    look.queued = 0 ∧ look.inFlight = c.session.state.pending

end Client
end Redelivery
