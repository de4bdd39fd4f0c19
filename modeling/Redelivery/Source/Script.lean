import Redelivery.Port

/-!
# A source that follows a script

What such a source answers is written down beforehand: the results of its connects and
closes, one after the other, and what each read finds.  Once the script is used up,
connecting and closing succeed, and a read waits until it is cancelled.

Main definitions:

* `Script.Item`: what a read finds.
* `Script`: a script and how far it has been followed.
* `Script.port`: the source as a port.
-/

namespace Redelivery
namespace Script

/-- What becomes of a report on a batch. -/
inductive Response where
  | accept
  | reject (reason : String)
  | die

/-- What a read finds. -/
inductive Find where
  | batch (contents : List (List UInt8)) (response : Response)
  | error (error : ReadError)
  /-- The read breaks off. -/
  | die

/-- What a read finds, and after how many milliseconds. -/
structure Item where
  delay : Option Nat
  find : Find

/-- What a source was told about an item. -/
structure Ack where
  item : Nat
  success : Bool
  deriving DecidableEq, Repr

end Script

/-- A script and how far it has been followed. -/
structure Script where
  connectResults : List (Option ReadError)
  closeResults : List (Option ReadError)
  items : Array Script.Item
  connects : Nat
  closes : Nat
  reads : Nat
  /-- The items that were found. -/
  used : Nat
  acks : List Script.Ack

namespace Script

/-- A script at its beginning. -/
def ofItems (connectResults closeResults : List (Option ReadError)) (items : Array Item) :
    Script where
  connectResults := connectResults
  closeResults := closeResults
  items := items
  connects := 0
  closes := 0
  reads := 0
  used := 0
  acks := []

/-- A read in progress. -/
inductive Reading where
  /-- About to look at the next item. -/
  | turning (scope : Scope)
  /-- Waits for an item, known by its place and by what it holds, until it is due. -/
  | delayed (scope : Scope) (place : Nat) (find : Find) (due : Nat)
  /-- The script is used up. -/
  | stalled (scope : Scope)

/-- What a step of a read comes to. -/
abbrev Going := Progress Reading Nat

/-- The result that a list of results gives in its `n`-th place. -/
def resultAt (results : List (Option ReadError)) (n : Nat) : Except ReadError Unit :=
  match (results[n]?).join with
  | some error => .error error
  | none => .ok ()

def connect (_ : Scope) : Act Script (Except ReadError Unit) := fun a s =>
  (resultAt s.connectResults s.connects, a, { s with connects := s.connects + 1 })

def close (_ : Scope) : Act Script (Except ReadError Unit) := fun a s =>
  (resultAt s.closeResults s.closes, a, { s with closes := s.closes + 1 })

/-- Begins a read. -/
def start (_ : Choice) (scope : Scope) : Act Script Going := fun a s =>
  (.going (.turning scope), a, { s with reads := s.reads + 1 })

/-- Finds the item at a place.  Two reads that waited for the same one both find it, and
each is given a batch of its own. -/
def found (place : Nat) (find : Find) : Act Script Going := fun a s =>
  let s := { s with used := max s.used (place + 1) }
  match find with
  | .batch contents _ =>
      let (batch, mint) := a.mint.batch contents
      (.ended (.delivered batch place), { a with mint }, s)
  | .error error => (.ended (.failed error), a, s)
  | .die => (.ended (.died "the source broke off"), a, s)

/-- A step of a read.  Cancellation matters only where the read waits. -/
def step (choice : Choice) (read : Reading) (a : Ambient) (s : Script) :
    Option (Going × Ambient × Script) :=
  match read with
  | .turning scope =>
      match s.items[s.used]? with
      | none => some (.going (.stalled scope), a, s)
      | some item =>
          match item.delay with
          | some delay =>
              some (.going (.delayed scope s.used item.find (a.now + delay)), a, s)
          | none => some (found s.used item.find a s)
  | .delayed scope place find due =>
      (choice.waited (a.scopes.IsCancelled scope) (due ≤ a.now)).map fun cancelled =>
        if cancelled then (.ended (.failed .cancelled), a, s) else found place find a s
  | .stalled scope =>
      if a.scopes.IsCancelled scope then some (.ended (.failed .cancelled), a, s) else none

/-- When a blocked read can go on by itself. -/
def wake : Reading → Script → Option Nat
  | .delayed _ _ _ due, _ => some due
  | _, _ => none

/-- Writes down what is reported on an item, and answers as the script says. -/
def settle (item : Nat) (outcome : Outcome) : Act Script Settlement := fun a s =>
  let settlement := match (s.items[item]?).map Item.find with
    | some (.batch _ (.reject reason)) => .rejected (.rejected reason)
    | some (.batch _ .die) => .died
    | _ => .accepted
  (settlement, a, { s with acks := s.acks ++ [⟨item, outcome.isProcessed⟩] })

/-- The source as a port. -/
def port : Port where
  State := Script
  Read := Reading
  Receipt := Nat
  connect := connect
  close := close
  start := start
  step := step
  wake := wake
  settle := settle

end Script

end Redelivery
