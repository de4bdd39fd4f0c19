import Redelivery.Proofs.Json.Record
import Redelivery.Settings.Document

/-!
# Settings that are saved and loaded

Saved settings say of each duration how many whole milliseconds it has, as many as 64 bits can
hold, and of each double its shortest text.  Loading them gives the settings with that much of
each duration, if those pass the check, and doubles are as their reader takes them.

What a text gives has whole milliseconds only, so that nothing is lost when it is saved again.
Of settings made otherwise, a ceiling or a poll interval below a millisecond passes the check
and is saved as zero, which does not pass it.

Main definitions:

* `Duration.truncated`, `Settings.truncated`: what is left in whole milliseconds.
* `Duration.InMillis`, `Settings.InMillis`: nothing but whole milliseconds.

Main results:

* Theorem `Settings.parse_write`: what saved settings are loaded as.
* Theorem `Settings.inMillis_of_parse`: what a text gives is in whole milliseconds.
* Theorem `Settings.survives_saving`: what was loaded is loaded again once it is saved.
* Theorem `Settings.reloads_truncated`: what the check passes is loaded once it is saved, or has
  a ceiling or a poll interval that is saved as zero.
-/

namespace Redelivery

open Json

/-! ## Whole milliseconds -/

namespace Duration

/-- The duration in whole milliseconds, at most as many as 64 bits can hold. -/
def truncated (d : Duration) : Duration :=
  ⟨min (d.nanos / nanosPerMilli) (2 ^ 64 - 1) * nanosPerMilli, by
    unfold nanosPerMilli nanosPerSecond
    omega⟩

/-- The duration is so many whole milliseconds. -/
def InMillis (d : Duration) : Prop := ∃ ms, d = ofMillis ms

theorem ofMillis_wholeMillis (d : Duration) : ofMillis d.wholeMillis = d.truncated := by
  apply ext_nanos
  have hmillis : d.wholeMillis.toNat = min (d.nanos / nanosPerMilli) (2 ^ 64 - 1) :=
    UInt64.toNat_ofNat_of_lt' ((Nat.min_le_right _ _).trans_lt (by decide))
  exact congrArg (· * nanosPerMilli) hmillis

theorem truncated_ofMillis (ms : UInt64) : (ofMillis ms).truncated = ofMillis ms := by
  apply ext_nanos
  have hms := ms.toNat_lt
  have hmillis : (ofMillis ms).nanos / nanosPerMilli = ms.toNat :=
    Nat.mul_div_cancel _ (by decide)
  have hmin : min ms.toNat (2 ^ 64 - 1) = ms.toNat := by omega
  change min ((ofMillis ms).nanos / nanosPerMilli) (2 ^ 64 - 1) * nanosPerMilli = _
  rw [hmillis, hmin]
  rfl

theorem InMillis.truncated_eq {d : Duration} (h : d.InMillis) : d.truncated = d := by
  obtain ⟨ms, rfl⟩ := h
  exact truncated_ofMillis ms

/-- Less than a millisecond is truncated to nothing. -/
theorem isZero_truncated (d : Duration) :
    d.truncated.isZero = decide (d.nanos < nanosPerMilli) := by
  have hmul : d.truncated.nanos = min (d.nanos / nanosPerMilli) (2 ^ 64 - 1) * nanosPerMilli := rfl
  unfold isZero
  rw [decide_eq_decide, hmul]
  unfold nanosPerMilli
  omega

/-- A duration is read in whole milliseconds. -/
theorem reads (d : Duration) : Reads readMillis (.integer d.wholeMillis.toNat) d.truncated :=
  d.ofMillis_wholeMillis ▸ (reads_uint64 d.wholeMillis "u64").map ofMillis

end Duration

theorem inMillis_of_readMillis {s left : List Char} {d : Duration}
    (read : readMillis s = .ok (d, left)) : d.InMillis := by
  rcases map_eq_ok.1 read with ⟨⟨ms, left'⟩, -, heq⟩
  cases heq
  exact ⟨ms, rfl⟩

/-! ## What is loaded -/

/-- What is said of a value and of its default is true of what is used. -/
theorem of_getD {α : Type} {Q : α → Prop} {value : Option α} {default : α}
    (h : ∀ a ∈ value, Q a) (hdefault : Q default) : Q (value.getD default) := by
  cases value with
  | none => exact hdefault
  | some a => exact h a rfl

namespace Policy

/-- The policy with its durations in whole milliseconds. -/
def truncated (policy : Policy) : Policy :=
  { policy with initial := policy.initial.truncated, ceiling := policy.ceiling.truncated }

/-- What was read of a policy fills the draft. -/
theorem fills {policy : Policy} (multiplier : Inverts policy.multiplier)
    (randomization : Inverts policy.randomization) :
    Fills record {} [
      ("initial_interval_ms", .integer policy.initial.wholeMillis.toNat),
      ("max_interval_ms", .integer policy.ceiling.wholeMillis.toNat),
      ("multiplier", .float policy.multiplier),
      ("randomization_factor", .float policy.randomization)]
      ⟨some policy.initial.truncated, some policy.ceiling.truncated, some policy.multiplier,
        some policy.randomization⟩ := by
  -- Each member adds its own field to the draft before it.
  refine .cons rfl rfl (policy.initial.reads.map fun d => Draft.mk (some d) none none none) ?_
  refine .cons rfl rfl (policy.ceiling.reads.map fun d => Draft.mk _ (some d) none none) ?_
  refine .cons rfl rfl (multiplier.reads.map fun x => Draft.mk _ _ (some x) none) ?_
  refine .cons rfl rfl (randomization.reads.map fun x => Draft.mk _ _ _ (some x)) ?_
  exact .nil

theorem reads {policy : Policy} (multiplier : Inverts policy.multiplier)
    (randomization : Inverts policy.randomization) :
    Reads read policy.toJson policy.truncated :=
  ((fills multiplier randomization).reads (missing?_eq_none (by decide) _)).map ofDraft

/-- Nothing but whole milliseconds. -/
structure InMillis (policy : Policy) : Prop where
  initial : policy.initial.InMillis
  ceiling : policy.ceiling.InMillis

theorem InMillis.truncated_eq {policy : Policy} (h : policy.InMillis) :
    policy.truncated = policy := by
  rw [truncated, h.initial.truncated_eq, h.ceiling.truncated_eq]

theorem inMillis_default : Policy.default.InMillis := ⟨⟨1, rfl⟩, ⟨1000, rfl⟩⟩

/-- Nothing but whole milliseconds in what a draft says. -/
structure Draft.InMillis (draft : Draft) : Prop where
  initial : ∀ d ∈ draft.initial, d.InMillis
  ceiling : ∀ d ∈ draft.ceiling, d.InMillis

theorem Draft.InMillis.ofDraft {draft : Draft} (h : draft.InMillis) :
    (Policy.ofDraft draft).InMillis :=
  ⟨of_getD h.initial inMillis_default.initial, of_getD h.ceiling inMillis_default.ceiling⟩

/-- Whatever is read as a policy is in whole milliseconds. -/
theorem inMillis_of_read {s left : List Char} {policy : Policy}
    (read : Policy.read s = .ok (policy, left)) : policy.InMillis := by
  rcases map_eq_ok.1 read with ⟨⟨draft, left'⟩, hrecord, heq⟩
  cases heq
  have hempty : Draft.InMillis {} :=
    ⟨fun _ h => absurd h (Option.not_mem_none _), fun _ h => absurd h (Option.not_mem_none _)⟩
  refine Draft.InMillis.ofDraft (Record.read_keeps hempty ?_ hrecord)
  intro field hfield draft s draft' left h hread
  simp only [record, List.mem_cons, List.not_mem_nil, or_false] at hfield
  rcases hfield with rfl | rfl | rfl | rfl
  · rcases map_eq_ok.1 hread with ⟨⟨d, left'⟩, hd, heq⟩
    cases heq
    exact ⟨fun _ heq => Option.some.inj heq ▸ inMillis_of_readMillis hd, h.ceiling⟩
  · rcases map_eq_ok.1 hread with ⟨⟨d, left'⟩, hd, heq⟩
    cases heq
    exact ⟨h.initial, fun _ heq => Option.some.inj heq ▸ inMillis_of_readMillis hd⟩
  · rcases map_eq_ok.1 hread with ⟨⟨x, left'⟩, hx, heq⟩
    cases heq
    exact ⟨h.initial, h.ceiling⟩
  · rcases map_eq_ok.1 hread with ⟨⟨x, left'⟩, hx, heq⟩
    cases heq
    exact ⟨h.initial, h.ceiling⟩

end Policy

namespace Settings

/-- The settings with their durations in whole milliseconds. -/
def truncated (settings : Settings) : Settings :=
  { settings with
    backoff := settings.backoff.truncated
    drainPoll := settings.drainPoll.truncated }

/-- What was read of settings fills the draft. -/
theorem fills {settings : Settings} (multiplier : Inverts settings.backoff.multiplier)
    (randomization : Inverts settings.backoff.randomization) :
    Fills record {} [
      ("backoff", settings.backoff.toJson),
      ("backoff_after_attempts", .integer settings.backoffAfter.toNat),
      ("drain_poll_interval_ms", .integer settings.drainPoll.wholeMillis.toNat)]
      ⟨some settings.backoff.truncated, some settings.backoffAfter,
        some settings.drainPoll.truncated⟩ := by
  refine .cons rfl rfl
    ((Policy.reads multiplier randomization).map fun p => Draft.mk (some p) none none) ?_
  refine .cons rfl rfl
    ((reads_uint32 settings.backoffAfter).map fun n => Draft.mk _ (some n) none) ?_
  refine .cons rfl rfl (settings.drainPoll.reads.map fun d => Draft.mk _ _ (some d)) ?_
  exact .nil

/-- Saved settings are loaded with what is left of them in whole milliseconds, if the check
passes that. -/
theorem parse_write {settings : Settings} (multiplier : Inverts settings.backoff.multiplier)
    (randomization : Inverts settings.backoff.randomization) :
    parse settings.write = settings.truncated.validate := by
  have hreads : Reads read settings.toJson settings.truncated :=
    ((fills multiplier randomization).reads (missing?_eq_none (by decide) _)).map ofDraft
  rw [parse, write, hreads.parse_eq]

/-- Nothing but whole milliseconds. -/
structure InMillis (settings : Settings) : Prop where
  backoff : settings.backoff.InMillis
  drainPoll : settings.drainPoll.InMillis

theorem InMillis.truncated_eq {settings : Settings} (h : settings.InMillis) :
    settings.truncated = settings := by
  rw [truncated, h.backoff.truncated_eq, h.drainPoll.truncated_eq]

/-- Nothing but whole milliseconds in what a draft says. -/
structure Draft.InMillis (draft : Draft) : Prop where
  backoff : ∀ p ∈ draft.backoff, p.InMillis
  drainPoll : ∀ d ∈ draft.drainPoll, d.InMillis

theorem Draft.InMillis.ofDraft {draft : Draft} (h : draft.InMillis) :
    (Settings.ofDraft draft).InMillis :=
  ⟨of_getD h.backoff Policy.inMillis_default, of_getD h.drainPoll ⟨10, rfl⟩⟩

/-- Whatever is read as settings is in whole milliseconds. -/
theorem inMillis_of_read {s left : List Char} {settings : Settings}
    (read : Settings.read s = .ok (settings, left)) : settings.InMillis := by
  rcases map_eq_ok.1 read with ⟨⟨draft, left'⟩, hrecord, heq⟩
  cases heq
  have hempty : Draft.InMillis {} :=
    ⟨fun _ h => absurd h (Option.not_mem_none _), fun _ h => absurd h (Option.not_mem_none _)⟩
  refine Draft.InMillis.ofDraft (Record.read_keeps hempty ?_ hrecord)
  intro field hfield draft s draft' left h hread
  simp only [record, List.mem_cons, List.not_mem_nil, or_false] at hfield
  rcases hfield with rfl | rfl | rfl
  · rcases map_eq_ok.1 hread with ⟨⟨p, left'⟩, hp, heq⟩
    cases heq
    exact ⟨fun _ heq => Option.some.inj heq ▸ Policy.inMillis_of_read hp, h.drainPoll⟩
  · rcases map_eq_ok.1 hread with ⟨⟨n, left'⟩, hn, heq⟩
    cases heq
    exact ⟨h.backoff, h.drainPoll⟩
  · rcases map_eq_ok.1 hread with ⟨⟨d, left'⟩, hd, heq⟩
    cases heq
    exact ⟨h.backoff, fun _ heq => Option.some.inj heq ▸ inMillis_of_readMillis hd⟩

/-- Nothing is wrong with settings of a finite factor that grows, a share, and two durations. -/
theorem problem?_eq_none {settings : Settings} : settings.problem? = none ↔
    settings.backoff.multiplier.isFinite = true ∧
      settings.backoff.multiplier.lt (.ofNat 1) = false ∧
        isShare settings.backoff.randomization = true ∧
          settings.backoff.ceiling.isZero = false ∧ settings.drainPoll.isZero = false := by
  simp [problem?, ite_eq_iff, and_assoc]

theorem validate_eq_ok {settings settings' : Settings} :
    settings.validate = .ok settings' ↔ settings.problem? = none ∧ settings' = settings := by
  unfold validate
  cases settings.problem? with
  | none => simp [eq_comm]
  | some problem => simp

/-- What a text gives is in whole milliseconds, and passes the check. -/
theorem inMillis_of_parse {text : String} {settings : Settings}
    (h : parse text = .ok settings) : settings.InMillis ∧ settings.validate = .ok settings := by
  unfold parse at h
  split at h
  case h_1 => cases h
  case h_2 loaded hparse =>
    rcases bind_eq_ok.1 hparse with ⟨⟨read, left⟩, hread, hblanks⟩
    obtain ⟨hproblem, rfl⟩ := validate_eq_ok.1 h
    refine ⟨?_, validate_eq_ok.2 ⟨hproblem, rfl⟩⟩
    dsimp only at hblanks
    split at hblanks
    case isTrue =>
      cases hblanks
      exact inMillis_of_read hread
    case isFalse => cases hblanks

/-- What a text gives is the same again once it is saved and loaded, as long as doubles are
read as what they were written from. -/
theorem survives_saving {text : String} {settings : Settings} (h : parse text = .ok settings)
    (multiplier : Inverts settings.backoff.multiplier)
    (randomization : Inverts settings.backoff.randomization) :
    parse settings.write = .ok settings := by
  rcases inMillis_of_parse h with ⟨hmillis, hvalid⟩
  rw [parse_write multiplier randomization, hmillis.truncated_eq, hvalid]

-- What follows names doubles; unfolded, their units would be computed.
attribute [local irreducible] Binary64.ofRatio

/-- The longest intervals that a text can give, jittered by half. -/
def longest : Settings where
  backoff := ⟨.ofMillis 18446744073709551615, .ofMillis 18446744073709551615, .ofRatio false 5 2,
    .ofRatio false 1 2⟩
  backoffAfter := 2
  drainPoll := .ofMillis 10

/-- A text that gives them, and says nothing else. -/
def longestText : String :=
  "\x7b \"backoff\": \x7b \"initial_interval_ms\": 18446744073709551615, \"multiplier\": 2.5, " ++
    "\"max_interval_ms\": 18446744073709551615, \"randomization_factor\": 0.5 \x7d \x7d"

theorem parse_longestText : parse longestText = .ok longest := by decide +kernel

theorem inverts_multiplier : Inverts longest.backoff.multiplier := by
  unfold Inverts
  decide +kernel

theorem inverts_randomization : Inverts longest.backoff.randomization := by
  unfold Inverts
  decide +kernel

/-- The longest intervals are saved as 64-bit numbers of milliseconds. -/
theorem survives_saving_longest : parse longestText = .ok longest ∧
    Inverts longest.backoff.multiplier ∧ Inverts longest.backoff.randomization ∧
      longest.write ≠ longestText ∧ parse longest.write = .ok longest :=
  ⟨parse_longestText, inverts_multiplier, inverts_randomization, by decide +kernel,
    survives_saving parse_longestText inverts_multiplier inverts_randomization⟩

/-! ## Settings that were not loaded -/

/-- Settings that pass the check are saved and loaded again with their durations in whole
milliseconds, unless nothing would be left of the ceiling or the interval between looks.  Then
loading them fails, and says which of the two is zero. -/
theorem reloads_truncated {settings : Settings} (valid : settings.validate = .ok settings)
    (multiplier : Inverts settings.backoff.multiplier)
    (randomization : Inverts settings.backoff.randomization) :
    parse settings.write =
      if settings.backoff.ceiling.nanos < nanosPerMilli then .error (.invalid .zeroCeiling)
      else if settings.drainPoll.nanos < nanosPerMilli then .error (.invalid .zeroPoll)
      else .ok settings.truncated := by
  obtain ⟨hfinite, hgrows, hshare, -, -⟩ := problem?_eq_none.1 (validate_eq_ok.1 valid).1
  rw [parse_write multiplier randomization]
  have hproblem : settings.truncated.problem? =
      if settings.backoff.ceiling.nanos < nanosPerMilli then some .zeroCeiling
      else if settings.drainPoll.nanos < nanosPerMilli then some .zeroPoll else none := by
    simp [problem?, truncated, Policy.truncated, hfinite, hgrows, hshare,
      Duration.isZero_truncated]
  rw [validate, hproblem]
  by_cases hceiling : settings.backoff.ceiling.nanos < nanosPerMilli
  · rw [if_pos hceiling, if_pos hceiling]
  · rw [if_neg hceiling, if_neg hceiling]
    split_ifs <;> rfl

/-- The longest intervals that there are, and looks that are no whole milliseconds apart. -/
def unhurried : Settings where
  backoff := { longest.backoff with
    initial := .ofNanos (2 ^ 64 * nanosPerSecond)
    ceiling := .ofNanos (2 ^ 64 * nanosPerSecond) }
  backoffAfter := 2
  drainPoll := .ofNanos 1999999

/-- They are loaded with the longest intervals that a text can give, and a millisecond. -/
theorem reloads_truncated_unhurried : unhurried.validate = .ok unhurried ∧
    Inverts unhurried.backoff.multiplier ∧ Inverts unhurried.backoff.randomization ∧
      unhurried.truncated = { longest with drainPoll := .ofMillis 1 } ∧
        parse unhurried.write = .ok { longest with drainPoll := .ofMillis 1 } := by
  have hvalid : unhurried.validate = .ok unhurried := by decide +kernel
  have htruncated : unhurried.truncated = { longest with drainPoll := .ofMillis 1 } := by
    decide +kernel
  have hloaded := reloads_truncated hvalid inverts_multiplier inverts_randomization
  rw [if_neg (by decide), if_neg (by decide), htruncated] at hloaded
  exact ⟨hvalid, inverts_multiplier, inverts_randomization, htruncated, hloaded⟩

/-- A ceiling of less than a millisecond. -/
def hurried : Settings := { longest with backoff.ceiling := .ofNanos 999999 }

/-- It passes the check, but not once it is saved. -/
theorem not_reloaded : hurried.validate = .ok hurried ∧
    Inverts hurried.backoff.multiplier ∧ Inverts hurried.backoff.randomization ∧
      parse hurried.write = .error (.invalid .zeroCeiling) ∧
        parse hurried.write ≠ .ok hurried.truncated := by
  have hloaded : parse hurried.write = hurried.truncated.validate :=
    parse_write inverts_multiplier inverts_randomization
  have hrefused : parse hurried.write = .error (.invalid .zeroCeiling) := by
    rw [hloaded]
    decide +kernel
  refine ⟨by decide +kernel, inverts_multiplier, inverts_randomization, hrefused, ?_⟩
  rw [hrefused]
  exact nofun

end Settings

end Redelivery
