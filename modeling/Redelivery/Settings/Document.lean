import Redelivery.Settings.Basic
import Redelivery.Json.Record
import Redelivery.Json.Value

/-!
# Settings as a document

Every field of the settings has a default, so an empty object is a valid document.
Durations are written in whole milliseconds.

Main definitions:

* `Settings.record`, `Settings.read`: reading settings over their defaults.
* `Settings.parse`: reading and checking a whole document.
* `Settings.toJson`, `Settings.write`: the written form.
-/

namespace Redelivery

/-- A duration in milliseconds. -/
def readMillis : Json.Reader Duration := fun s =>
  (Json.readUInt64 "u64" s).map fun (ms, s) => (.ofMillis ms, s)

namespace Policy

/-- What a document says about a policy. -/
structure Draft where
  initial : Option Duration := none
  ceiling : Option Duration := none
  multiplier : Option Binary64 := none
  randomization : Option Binary64 := none

/-- The policy of a draft, with the defaults for what it does not say. -/
def ofDraft (draft : Draft) : Policy where
  initial := draft.initial.getD default.initial
  ceiling := draft.ceiling.getD default.ceiling
  multiplier := draft.multiplier.getD default.multiplier
  randomization := draft.randomization.getD default.randomization

def initialField : Json.Field Draft where
  name := "initial_interval_ms"
  required := false
  present draft := draft.initial.isSome
  read draft s := (readMillis s).map fun (d, s) => ({ draft with initial := some d }, s)

def ceilingField : Json.Field Draft where
  name := "max_interval_ms"
  required := false
  present draft := draft.ceiling.isSome
  read draft s := (readMillis s).map fun (d, s) => ({ draft with ceiling := some d }, s)

def multiplierField : Json.Field Draft where
  name := "multiplier"
  required := false
  present draft := draft.multiplier.isSome
  read draft s :=
    (Json.readDouble s).map fun (x, s) => ({ draft with multiplier := some x }, s)

def randomizationField : Json.Field Draft where
  name := "randomization_factor"
  required := false
  present draft := draft.randomization.isSome
  read draft s :=
    (Json.readDouble s).map fun (x, s) => ({ draft with randomization := some x }, s)

/-- How a policy is read. -/
def record : Json.Record Draft where
  name := "struct BackoffPolicy"
  fields := [initialField, ceilingField, multiplierField, randomizationField]
  empty := {}

/-- Reads a policy over its defaults. -/
def read : Json.Reader Policy := fun s =>
  (record.read s).map fun (draft, s) => (ofDraft draft, s)

/-- The written form. -/
def toJson (policy : Policy) : Json.Value :=
  .object [
    ("initial_interval_ms", .integer policy.initial.wholeMillis.toNat),
    ("max_interval_ms", .integer policy.ceiling.wholeMillis.toNat),
    ("multiplier", .float policy.multiplier),
    ("randomization_factor", .float policy.randomization)]

end Policy

namespace Settings

/-- What a document says about settings. -/
structure Draft where
  backoff : Option Policy := none
  backoffAfter : Option UInt32 := none
  drainPoll : Option Duration := none

/-- The settings of a draft, with the defaults for what it does not say. -/
def ofDraft (draft : Draft) : Settings where
  backoff := draft.backoff.getD default.backoff
  backoffAfter := draft.backoffAfter.getD default.backoffAfter
  drainPoll := draft.drainPoll.getD default.drainPoll

def backoffField : Json.Field Draft where
  name := "backoff"
  required := false
  present draft := draft.backoff.isSome
  read draft s := (Policy.read s).map fun (p, s) => ({ draft with backoff := some p }, s)

def backoffAfterField : Json.Field Draft where
  name := "backoff_after_attempts"
  required := false
  present draft := draft.backoffAfter.isSome
  read draft s :=
    (Json.readUInt32 s).map fun (n, s) => ({ draft with backoffAfter := some n }, s)

def drainPollField : Json.Field Draft where
  name := "drain_poll_interval_ms"
  required := false
  present draft := draft.drainPoll.isSome
  read draft s := (readMillis s).map fun (d, s) => ({ draft with drainPoll := some d }, s)

/-- How settings are read. -/
def record : Json.Record Draft where
  name := "struct PreserverConfig"
  fields := [backoffField, backoffAfterField, drainPollField]
  empty := {}

/-- Reads settings over their defaults. -/
def read : Json.Reader Settings := fun s =>
  (record.read s).map fun (draft, s) => (ofDraft draft, s)

/-- Why a text gives no settings. -/
inductive ParseError where
  | json (fault : Json.Fault)
  | invalid (problem : Problem)
  deriving DecidableEq

def ParseError.message : ParseError → String
  | json fault => "invalid config json: " ++ fault.message
  | invalid problem => "invalid config: " ++ problem.message

/-- Refuses settings with a problem. -/
def validate (settings : Settings) : Except ParseError Settings :=
  match settings.problem? with
  | none => .ok settings
  | some problem => .error (.invalid problem)

/-- Reads a whole document and checks the settings it gives. -/
def parse (text : String) : Except ParseError Settings :=
  match Json.parse read text with
  | .error fault => .error (.json fault)
  | .ok settings => settings.validate

/-- The written form. -/
def toJson (settings : Settings) : Json.Value :=
  .object [
    ("backoff", settings.backoff.toJson),
    ("backoff_after_attempts", .integer settings.backoffAfter.toNat),
    ("drain_poll_interval_ms", .integer settings.drainPoll.wholeMillis.toNat)]

/-- The text of the written form. -/
def write (settings : Settings) : String := settings.toJson.write

end Settings

end Redelivery
