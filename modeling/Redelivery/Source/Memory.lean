import Redelivery.Port

/-!
# A source in memory

Batches are pushed in by hand and handed out in order.  A batch that has been read is
forgotten: what is reported about it is only written down.

A reader that finds nothing waits to be woken.  Each push, and each closing, wakes the
one that has waited longest; if nobody waits, one permit is kept for the next who is
about to.  A reader that is cancelled after it was woken passes the wake-up on.

Main definitions:

* `Memory`, `Memory.empty`, `Memory.finite`: the state of a source.
* `Memory.push`, `Memory.closeInput`, `Memory.failConnects`: what its owner can do.
* `Memory.Reading`: the phases of a read.
* `Memory.port`: the source as a port.
-/

namespace Redelivery

/-- What a source was told about a batch. -/
structure AckRecord where
  batch : Nat
  texts : List String
  success : Bool
  deriving DecidableEq, Repr

/-- The state of a source in memory.  The connects and reads that were made and the connects that
are to fail are counted without a bound: the words of 32 bits that hold these counts are equal to
them as long as fewer than `2 ^ 32` connects and reads were made. -/
structure Memory where
  /-- The batches that have not been read, by number. -/
  batches : List (Nat × Batch)
  /-- The number of the next batch. -/
  next : Nat
  inputClosed : Bool
  /-- How many of the next connects fail. -/
  failingConnects : Nat
  connects : Nat
  reads : Nat
  shutDown : Bool
  /-- A wake-up that found nobody waiting. -/
  permit : Bool
  /-- The readers that wait, the longest first. -/
  waiting : List Nat
  /-- The readers that were woken and have not gone on. -/
  woken : List Nat
  /-- The number of the next reader that waits. -/
  nextWaiter : Nat
  acks : List AckRecord

namespace Memory

/-- A source to which nothing has been pushed. -/
def empty : Memory where
  batches := []
  next := 0
  inputClosed := false
  failingConnects := 0
  connects := 0
  reads := 0
  shutDown := false
  permit := false
  waiting := []
  woken := []
  nextWaiter := 0
  acks := []

/-- Wakes the reader that has waited longest, or keeps a permit. -/
def notify (m : Memory) : Memory :=
  match m.waiting with
  | reader :: rest => { m with waiting := rest, woken := m.woken ++ [reader] }
  | [] => { m with permit := true }

/-- Adds a batch at the end. -/
def add (m : Memory) (batch : Batch) : Memory :=
  { m with batches := m.batches ++ [(m.next, batch)], next := m.next + 1 }

/-- Adds a batch at the end and wakes a reader. -/
def push (m : Memory) (batch : Batch) : Memory := (m.add batch).notify

/-- Nothing more will be pushed. -/
def closeInput (m : Memory) : Memory := { m with inputClosed := true }.notify

/-- Makes the next connects fail. -/
def failConnects (m : Memory) (n : Nat) : Memory := { m with failingConnects := n }

/-- A source that holds some batches and gets no more. -/
def finite (batches : List Batch) : Memory :=
  { batches.foldl add empty with inputClosed := true }

/-- A read in progress. -/
inductive Reading where
  /-- About to look for a batch. -/
  | looking (scope : Scope)
  /-- Found nothing, and is about to wait. -/
  | pausing (scope : Scope)
  /-- Waits under a number. -/
  | waiting (scope : Scope) (waiter : Nat)

/-- The receipt of a batch: its number and its texts. -/
structure Receipt where
  batch : Nat
  texts : List String

/-- What a step of a read comes to. -/
abbrev Going := Progress Reading Receipt

/-- Connects.  A source that was shut down, or has ended, has nothing more to give. -/
def connect (_ : Scope) : Act Memory (Except ReadError Unit) := fun a m =>
  let m := { m with connects := m.connects + 1 }
  if 0 < m.failingConnects then
    (.error (.connection "in-memory source unavailable"), a,
      { m with failingConnects := m.failingConnects - 1 })
  else if m.shutDown || (m.inputClosed && m.batches.isEmpty) then (.error .closed, a, m)
  else (.ok (), a, m)

/-- Shuts the source down and wakes a reader. -/
def close (_ : Scope) : Act Memory (Except ReadError Unit) := fun a m =>
  (.ok (), a, { m with shutDown := true }.notify)

/-- Begins a read. -/
def start (_ : Choice) (scope : Scope) : Act Memory Going := fun a m =>
  (.going (.looking scope), a, { m with reads := m.reads + 1 })

/-- Looks for a batch. -/
def look (scope : Scope) (m : Memory) : Going × Memory :=
  if m.shutDown then (.ended (.failed .closed), m)
  else
    match m.batches with
    | (id, batch) :: rest =>
        (.ended (.delivered batch ⟨id, batch.texts⟩), { m with batches := rest })
    | [] =>
        if m.inputClosed then (.ended (.failed .closed), m)
        else (.going (.pausing scope), m)

/-- Begins to wait, unless there is a permit or the read was cancelled. -/
def pause (choice : Choice) (scope : Scope) (cancelled : Bool) (m : Memory) : Going × Memory :=
  if m.permit && !(cancelled && choice.cancelFirst) then
    (.going (.looking scope), { m with permit := false })
  else if cancelled then (.ended (.failed .cancelled), m)
  else
    (.going (.waiting scope m.nextWaiter),
      { m with waiting := m.waiting ++ [m.nextWaiter], nextWaiter := m.nextWaiter + 1 })

/-- Goes on after a wake-up, or gives up waiting; a wake-up that is not used is passed
on. -/
def resume (choice : Choice) (scope : Scope) (waiter : Nat) (cancelled : Bool) (m : Memory) :
    Option (Going × Memory) :=
  let woken := m.woken.contains waiter
  let rest := { m with
    woken := m.woken.filter (· ≠ waiter), waiting := m.waiting.filter (· ≠ waiter) }
  if woken && !(cancelled && choice.cancelFirst) then some (.going (.looking scope), rest)
  else if cancelled then
    some (.ended (.failed .cancelled), if woken then rest.notify else rest)
  else none

/-- A step of a read. -/
def step (choice : Choice) (read : Reading) (a : Ambient) (m : Memory) :
    Option (Going × Ambient × Memory) :=
  match read with
  | .looking scope =>
      let (going, m) := look scope m
      some (going, a, m)
  | .pausing scope =>
      let (going, m) := pause choice scope (a.scopes.IsCancelled scope) m
      some (going, a, m)
  | .waiting scope waiter =>
      (resume choice scope waiter (a.scopes.IsCancelled scope) m).map
        fun (going, m) => (going, a, m)

/-- Writes down what is reported. -/
def settle (receipt : Receipt) (outcome : Outcome) : Act Memory Settlement := fun a m =>
  (.accepted, a,
    { m with acks := m.acks ++ [⟨receipt.batch, receipt.texts, outcome.isProcessed⟩] })

/-- The source as a port. -/
def port : Port where
  State := Memory
  Read := Reading
  Receipt := Receipt
  connect := connect
  close := close
  start := start
  step := step
  wake _ _ := none
  settle := settle

end Memory

end Redelivery
