import Redelivery.Command.Arguments
import Redelivery.Consumer.Flaky
import Redelivery.Consumer.Run
import Redelivery.Layer
import Redelivery.Settings.File
import Redelivery.Source.Memory

/-!
# What the command does

The command pushes batches into a source in memory, has a consumer read them through a
redelivery layer, and reports what happened when the source has ended and everything has
been acknowledged.  Parts are rejected by chance, and are processed again until they pass.

Main definitions:

* `Command.Refusal`: why the command did not run.
* `Command.accept`, `Command.configure`: what is checked before it runs.
* `Command.Run`, `Command.start`, `Command.goOn`: the run.
* `Command.Summary`: what is reported at the end.
-/

namespace Redelivery
namespace Command

/-- Why the command did not run. -/
inductive Refusal where
  /-- It cannot be used with such arguments. -/
  | usage
  | failureRate (got : Binary64)
  | settings (error : Settings.LoadError)

namespace Refusal

/-- The line that is printed; what is wrong with the arguments is not said. -/
def line? : Refusal → Option String
  | usage => none
  | failureRate got =>
      some ("Error: " ++ Quoted.write
        ("--failure-rate must be in [0, 1), got " ++ Settings.floatLayout.write got))
  | settings error => some ("Error: " ++ error.describe)

/-- The number with which the command exits. -/
def exitCode : Refusal → UInt8
  | usage => 2
  | _ => 1

end Refusal

/-- Refuses a probability with which the command would never end. -/
def accept (options : Options) : Except Refusal Options :=
  if Settings.isShare options.failureRate then .ok options
  else .error (.failureRate options.failureRate)

/-- The settings, from the text of the file in the options if one was given. -/
def configure (file : Option (String × Except FileError String)) : Except Refusal Settings :=
  match file with
  | none => .ok .default
  | some (path, text) => (Settings.ofFile path text).mapError .settings

/-- One layer around a source in memory. -/
abbrev supply (settings : Settings) : Port := Layer.port settings Memory.port

/-- A consumer of the supply that rejects parts by chance. -/
abbrev Run (options : Options) (settings : Settings) (draws : Nat → UInt64) :=
  Consumer (supply settings)
    (Flaky.processor draws options.failureRate (.ofMillis options.workMillis))

/-- The texts of the parts of a batch, by its number. -/
def texts (options : Options) (batch : Nat) : List String :=
  (List.range options.parts.toNat).map fun part => s!"batch{batch}-part{part}"

/-- Pushes the batch with some number. -/
def push {settings : Settings} (options : Options) (session : Session (supply settings))
    (number : Nat) : Session (supply settings) :=
  let contents := (texts options number).map fun text => text.toUTF8.toList
  let (batch, mint) := session.ambient.mint.batch contents
  { session with
    ambient := { session.ambient with mint }
    state := { session.state with inner := session.state.inner.push batch } }

/-- Pushes all batches and closes the input. -/
def produce {settings : Settings} (options : Options) (session : Session (supply settings)) :
    Session (supply settings) :=
  let session := (List.range options.batches.toNat).foldl (push options) session
  { session with
    state := { session.state with inner := session.state.inner.closeInput } }

/-- A consumer of all batches that is about to connect. -/
def start (options : Options) (settings : Settings) (draws : Nat → UInt64) :
    Run options settings draws :=
  let (interrupt, ambient) := (Ambient.start (.ofSeconds 0)).freshScope
  let session : Session (supply settings) :=
    .new ambient (Layer.new (P := Memory.port) Memory.empty interrupt)
  .new (produce options session) .new Consumer.usualDelay

/-- Of a cancellation and a delay that ends at the same time the cancellation is seen
first, and jittered delays are as short as they can be. -/
def choice : Choice := ⟨true, fun low _ => low⟩

/-- Lets the consumer go on for an hour, which takes no longer than its steps do. -/
def goOn {options : Options} {settings : Settings} {draws : Nat → UInt64}
    (run : Run options settings draws) : Run options settings draws :=
  run.await choice 1000000 3600000

/-! ## The summary -/

/-- What is reported at the end. -/
structure Summary where
  report : Report
  stats : Stats
  /-- How many batches the source was told about. -/
  sourceAcks : Nat
  /-- How many parts passed. -/
  partsProcessed : Nat

/-- The summary of a run that has come to its end.  There is none if the consumer broke off. -/
def summary? {options : Options} {settings : Settings} {draws : Nat → UInt64}
    (run : Run options settings draws) : Option Summary :=
  match run.phase with
  | .finished =>
      let layer : Layer Memory.port := run.session.state
      let flaky : Flaky := run.worker
      some ⟨run.report, layer.stats, (layer.inner : Memory).acks.length, flaky.passed⟩
  | _ => none

/-- The members of an object by name. -/
def sorted : Json.Value → Json.Value
  | .object members => .object (members.mergeSort fun x y => x.1 ≤ y.1)
  | value => value

/-- The written form, with the members of all objects by name. -/
def Summary.toJson (summary : Summary) : Json.Value :=
  sorted <| .object [
    ("report", sorted summary.report.toJson),
    ("stats", sorted summary.stats.toJson),
    ("source_acks", .integer summary.sourceAcks),
    ("parts_processed", .integer summary.partsProcessed)]

end Command
end Redelivery
