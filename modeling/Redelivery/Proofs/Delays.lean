import Redelivery.Proofs.Backoff
import Redelivery.Proofs.Duration
import Redelivery.Settings.Basic

/-!
# The ceiling and the growth of delays

The interval of a series never passes the ceiling of its policy, although the two are compared
as rounded seconds: seconds below those of the ceiling give no longer duration.  Growth is
computed in seconds too, and a first interval that is no such number of seconds may be made
shorter by the way to seconds and back.  What a series comes to after its first step has come
that way before, so from there on no delay is shorter than the one before it.

Main definitions:

* `Policy.Unjittered`: the delays of a policy are its intervals.
* `Backoff.Reached`: the series after so many calls for a delay.
* `Policy.delay`, `Policy.Climbs`: the delays of a policy without jitter, and how they follow on
  each other.

Main results:

* Theorem `Backoff.advanced_cases`: the next interval is the ceiling, or comes from seconds that
  are no fewer than those of the present one.
* Theorem `Backoff.interval_le_ceiling`: no interval passes the ceiling.
* Theorem `Policy.climbs_after_first`: no delay after the first is shorter than the one before.
-/

namespace Redelivery

/-! ## Durations in order -/

namespace Duration

theorem le_refl (d : Duration) : d ≤ d := Nat.le_refl d.nanos

theorem le_trans {d e f : Duration} (h : d ≤ e) (h' : e ≤ f) : d ≤ f :=
  Nat.le_trans (n := d.nanos) h h'

theorem min_le_right (d e : Duration) : min d e ≤ e := by
  change (if d ≤ e then d else e) ≤ e
  split
  case isTrue h => exact h
  case isFalse => exact le_refl e

theorem min_eq_right {d e : Duration} (h : e ≤ d) : min d e = e := by
  change (if d ≤ e then d else e) = e
  split
  case isTrue h' => exact ext_nanos (Nat.le_antisymm h' h)
  case isFalse => rfl

/-- A sequence of durations none of which is shorter than the one before it. -/
theorem le_of_succ {delay : Nat → Duration} {m : Nat} (h : ∀ n, m ≤ n → delay n ≤ delay (n + 1))
    {n : Nat} (hn : m ≤ n) : delay m ≤ delay n := by
  induction n, hn using Nat.le_induction with
  | base => exact le_refl _
  | succ n hn ih => exact le_trans ih (h n hn)

end Duration

/-- The delays of the policy are its intervals: its jitter is none, or not above zero, or no
number. -/
def Policy.Unjittered (policy : Policy) : Prop :=
  policy.randomization.isNaN = true ∨ policy.randomization.le .zero = true

theorem Policy.Unjittered.jitter?_eq_none {policy : Policy} (h : policy.Unjittered) :
    Backoff.jitter? policy.randomization = none := by
  have hlt : Binary64.zero.lt policy.randomization = false := by
    unfold Policy.Unjittered at h
    cases hshare : policy.randomization with
    | nan => rfl
    | infinite negative => simpa [hshare, Binary64.isNaN, Binary64.le, Binary64.lt,
        Binary64.zero] using h
    | finite negative units representable => simpa [hshare, Binary64.isNaN, Binary64.le,
        Binary64.lt, Binary64.zero] using h
  simp [Backoff.jitter?, hlt]

namespace Backoff

open Binary64

-- Unfolded, a magnitude would be computed bit by bit.
attribute [local irreducible] one unitScale

/-! ## One step -/

/-- The factor that is used is at least one. -/
theorem factor_cases (b : Backoff) : b.factor = .infinite false ∨
    ∃ units representable, one ≤ units ∧ b.factor = .finite false units representable := by
  unfold factor
  rw [ofNat_one]
  split
  case isFalse => exact .inr ⟨one, representable_one, Nat.le_refl _, rfl⟩
  case isTrue hle =>
    cases hmultiplier : b.policy.multiplier with
    | nan => simp [hmultiplier, Binary64.le] at hle
    | infinite negative =>
        obtain rfl : negative = false := by simpa [hmultiplier, Binary64.le] using hle
        exact .inl rfl
    | finite negative units representable =>
        have hle' : (one : Int) ≤ signed negative units := by
          simpa [hmultiplier, Binary64.le, signed] using hle
        have hpos := pos_one
        cases negative with
        | true =>
            simp only [signed, if_true] at hle'
            omega
        | false => exact .inr ⟨units, representable, Int.ofNat_le.1 hle', rfl⟩

/-- A product that is below the ceiling has no fewer seconds than the interval. -/
theorem product_of_lt {b : Backoff}
    (h : (b.current.toSeconds.mul b.factor).lt b.policy.ceiling.toSeconds = true) :
    ∃ units representable, b.current.toSeconds.mul b.factor = .finite false units representable ∧
      b.current.units ≤ units ∧ units < b.policy.ceiling.units := by
  obtain ⟨hcurrent, hcurrentEq⟩ := b.current.toSeconds_eq
  obtain ⟨hceiling, hceilingEq⟩ := b.policy.ceiling.toSeconds_eq
  rw [hcurrentEq, hceilingEq] at h
  rw [hcurrentEq]
  rcases b.factor_cases with hfactor | ⟨units, representable, hone, hfactor⟩
  · -- Nothing grown without bound is below the ceiling.
    rw [hfactor, Binary64.mul] at h
    split at h
    · cases h
    · cases h
  · rw [hfactor, Binary64.mul] at h ⊢
    have hgrown : b.current.units ≤ nearest (b.current.units * units) one :=
      le_nearest_of_le hcurrent.1 pos_one (Nat.mul_le_mul_left _ hone)
    have hnonNegative : NonNegative (ofUnits (false ^^ false) (b.current.units * units) one) :=
      nonNegative_ofUnits _ _
    rcases hnonNegative.finite_of_lt h (.intro (Nat.le_refl _)) with ⟨product, hproduct, heq, hlt⟩
    refine ⟨product, hproduct, heq, ?_, hlt⟩
    rw [Bool.false_xor, ofUnits] at heq
    split at heq
    · injection heq with _ hproductEq
      exact hproductEq ▸ hgrown
    · cases heq

/-- The next interval is the ceiling, or comes from seconds that are no fewer than those of the
present one, and fewer than those of the ceiling. -/
theorem advanced_cases (b : Backoff) : b.advanced.current = b.policy.ceiling ∨
    ∃ units representable, Duration.ofSeconds? (.finite false units representable) =
      .ok b.advanced.current ∧ b.current.units ≤ units ∧ units < b.policy.ceiling.units := by
  have hgrown := b.grown_eq
  simp only [grown] at hgrown
  split at hgrown
  case isTrue hlt =>
    rcases product_of_lt hlt with ⟨units, representable, heq, hle, hunits⟩
    rw [heq] at hgrown
    exact .inr ⟨units, representable, hgrown, hle, hunits⟩
  case isFalse => exact .inl (Except.ok.inj hgrown).symm

/-- The next interval does not pass the ceiling. -/
theorem current_advanced_le (b : Backoff) : b.advanced.current ≤ b.policy.ceiling := by
  rcases b.advanced_cases with heq | ⟨units, representable, hseconds, -, hlt⟩
  · exact heq ▸ Duration.le_refl _
  · exact Duration.ofSeconds_le_of_lt hlt hseconds

/-- At the ceiling a series stays. -/
theorem advanced_eq_ceiling {b : Backoff} (h : b.current = b.policy.ceiling) :
    b.advanced.current = b.policy.ceiling := by
  rcases b.advanced_cases with heq | ⟨units, representable, -, hle, hlt⟩
  · exact heq
  · rw [h] at hle
    exact absurd hlt (Nat.not_lt.2 hle)

/-- The next interval is no shorter than what becomes of the present one on its way to seconds
and back, or than the present one itself. -/
theorem le_advanced_or_back (b : Backoff) (capped : b.current ≤ b.policy.ceiling) :
    b.current ≤ b.advanced.current ∨
      ∃ back, Duration.ofSeconds? b.current.toSeconds = .ok back ∧ back ≤ b.advanced.current := by
  rcases b.advanced_cases with heq | ⟨units, representable, hseconds, hle, -⟩
  · exact .inl (heq ▸ capped)
  · obtain ⟨hcurrent, hcurrentEq⟩ := b.current.toSeconds_eq
    have hfew := hle.trans_lt (Duration.ofSeconds_eq_ok hseconds).1
    obtain ⟨back, hback⟩ : ∃ back, Duration.ofSeconds? (.finite false _ hcurrent) = .ok back :=
      Duration.exists_ofSeconds hfew
    rw [hcurrentEq]
    exact .inr ⟨back, hback, Duration.ofSeconds_mono hle hback hseconds⟩

/-- The next interval is no shorter than one that the way to seconds and back preserves. -/
theorem le_advanced {b : Backoff} (capped : b.current ≤ b.policy.ceiling)
    (preserved : b.current.Preserved) : b.current ≤ b.advanced.current := by
  rcases b.le_advanced_or_back capped with hle | ⟨back, hback, hle⟩
  · exact hle
  · exact Duration.le_trans (preserved back hback) hle

/-- What a series comes to in a step is the ceiling, or is preserved on its way to seconds and
back. -/
theorem advanced_settled (b : Backoff) :
    b.advanced.current = b.policy.ceiling ∨ b.advanced.current.Preserved := by
  rcases b.advanced_cases with heq | ⟨units, representable, hseconds, -, -⟩
  · exact .inl heq
  · exact .inr (Duration.preserved_ofSeconds hseconds)

/-- After a step, the next interval is no shorter. -/
theorem advanced_le_advanced (b : Backoff) :
    b.advanced.current ≤ b.advanced.advanced.current := by
  have hcapped : b.advanced.current ≤ b.advanced.policy.ceiling := by
    rw [policy_advanced]
    exact b.current_advanced_le
  rcases b.advanced_settled with heq | hpreserved
  · have hstays := advanced_eq_ceiling (b := b.advanced) (by rw [policy_advanced, heq])
    rw [hstays]
    exact hcapped
  · exact le_advanced hcapped hpreserved

/-! ## All steps -/

/-- The series of a policy after so many calls for a delay.  A call that breaks off, since what
was drawn is no delay, has advanced the series as well. -/
inductive Reached (policy : Policy) : Nat → Backoff → Prop
  | start : Reached policy 0 policy.start
  | draws {n : Nat} {b b' : Backoff} {pick : Pick} {wait : Duration} :
      Reached policy n b → b.next pick = .ok (wait, b') → Reached policy (n + 1) b'
  | breaks {n : Nat} {b : Backoff} {pick : Pick} {reason : Duration.OutOfRange}
      {current : Duration} : Reached policy n b → b.next pick = .error reason →
        b.grown = .ok current → Reached policy (n + 1) { b with current }

/-- Whatever was drawn, the series has advanced as often as it was called. -/
theorem Reached.eq_iterate {policy : Policy} {n : Nat} {b : Backoff} (h : Reached policy n b) :
    b = advanced^[n] policy.start := by
  induction h with
  | start => rfl
  | draws _ next ih => rw [Function.iterate_succ_apply', ← ih, next_eq_ok next]
  | breaks _ _ grown ih => rw [Function.iterate_succ_apply', ← ih, advanced_of_grown grown]

theorem Reached.policy_eq {policy : Policy} {n : Nat} {b : Backoff} (h : Reached policy n b) :
    b.policy = policy := by
  rw [h.eq_iterate, policy_iterate]
  rfl

/-- Without jitter, the delay of a call is the interval before it. -/
theorem Reached.exists_next {policy : Policy} {n : Nat} {b : Backoff} (h : Reached policy n b)
    (unjittered : policy.Unjittered) (pick : Pick) : ∃ b', b.next pick = .ok (b.current, b') := by
  have hsteady : jitter? b.policy.randomization = none := by
    rw [h.policy_eq]
    exact unjittered.jitter?_eq_none
  exact ⟨b.advanced, next_of_unjittered hsteady pick⟩

/-- No interval of a series passes the ceiling. -/
theorem iterate_le_ceiling (policy : Policy) (n : Nat) :
    (advanced^[n] policy.start).current ≤ policy.ceiling := by
  cases n with
  | zero => exact Duration.min_le_right _ _
  | succ n =>
      have hle := (advanced^[n] policy.start).current_advanced_le
      rwa [policy_iterate, ← Function.iterate_succ_apply' advanced n policy.start] at hle

/-- The interval starts at the first one or the ceiling and never passes the ceiling, whatever
the policy and whatever was drawn; without jitter, the delay of every call is the interval
before it. -/
theorem interval_le_ceiling (policy : Policy) :
    policy.start.current = min policy.initial policy.ceiling ∧
      ∀ n b, Reached policy n b → b.current ≤ policy.ceiling ∧
        (policy.Unjittered → ∀ pick, ∃ b', b.next pick = .ok (b.current, b')) := by
  refine ⟨rfl, fun n b h => ⟨?_, h.exists_next⟩⟩
  rw [h.eq_iterate]
  exact iterate_le_ceiling policy n

/-- A series that grows without bound and has no number for its jitter. -/
def boundless : Policy := ⟨.ofMillis 10, .ofMillis 100, .infinite false, .nan⟩

/-- After one call for a delay it is at its ceiling. -/
theorem interval_le_ceiling_boundless : ∃ b, Reached boundless 1 b ∧ boundless.Unjittered ∧
    b.current = boundless.ceiling ∧ b.current ≤ boundless.ceiling ∧
      ∀ pick, ∃ b', b.next pick = .ok (b.current, b') := by
  have hunjittered : boundless.Unjittered := .inl rfl
  have hreached : Reached boundless 1 boundless.start.advanced :=
    .draws .start (next_of_unjittered hunjittered.jitter?_eq_none fun low _ => low)
  have hall := (interval_le_ceiling boundless).2 1 _ hreached
  refine ⟨_, hreached, hunjittered, ?_, hall.1, hall.2 hunjittered⟩
  have hgrown : boundless.start.grown = .ok boundless.ceiling := by decide +kernel
  rw [advanced_of_grown hgrown]

end Backoff

/-! ## Without jitter -/

/-- The delay of a policy without jitter that comes after so many others. -/
def Policy.delay (policy : Policy) (n : Nat) : Duration :=
  (Backoff.advanced^[n] policy.start).current

/-- The delays of a series without jitter.

* They are what the calls for a delay return, beginning with the first interval or the ceiling.
* From the second on, none is shorter than the one before it, and none is shorter than the
  first, or than what becomes of the first on its way to seconds and back.
* If the second is no shorter than the first, none is shorter than the one before it, and none
  is shorter than the first; and only then.
* It is no shorter if the first is the ceiling, or has no more than `2 ^ 23` seconds, or is
  preserved on its way to seconds and back. -/
structure Policy.Climbs (policy : Policy) : Prop where
  drawn : ∀ n b, Backoff.Reached policy n b → ∀ pick, ∃ b', b.next pick = .ok (policy.delay n, b')
  first : policy.delay 0 = min policy.initial policy.ceiling
  later : ∀ n, 1 ≤ n → policy.delay n ≤ policy.delay (n + 1)
  least : ∀ n, policy.delay 0 ≤ policy.delay n ∨
    ∃ back, Duration.ofSeconds? (policy.delay 0).toSeconds = .ok back ∧ back ≤ policy.delay n
  always_iff : (∀ n, policy.delay n ≤ policy.delay (n + 1)) ↔ policy.delay 0 ≤ policy.delay 1
  least_iff : (∀ n, policy.delay 0 ≤ policy.delay n) ↔ policy.delay 0 ≤ policy.delay 1
  kept : policy.ceiling ≤ policy.initial ∨
    (policy.delay 0).nanos ≤ 2 ^ 23 * nanosPerSecond ∨ (policy.delay 0).Preserved →
      policy.delay 0 ≤ policy.delay 1

namespace Policy

open Backoff

theorem delay_succ (policy : Policy) (n : Nat) :
    policy.delay (n + 1) = (advanced^[n] policy.start).advanced.current :=
  congrArg Backoff.current (Function.iterate_succ_apply' ..)

theorem delay_one (policy : Policy) : policy.delay 1 = policy.start.advanced.current :=
  policy.delay_succ 0

theorem start_le_ceiling (policy : Policy) : policy.start.current ≤ policy.start.policy.ceiling :=
  Duration.min_le_right _ _

/-- After the first step no delay is shorter than the one before it. -/
theorem delay_le_succ (policy : Policy) (n : Nat) :
    policy.delay (n + 1) ≤ policy.delay (n + 2) := by
  rw [delay_succ, delay_succ, Function.iterate_succ_apply']
  exact advanced_le_advanced _

theorem delay_one_le (policy : Policy) {n : Nat} (hn : 1 ≤ n) :
    policy.delay 1 ≤ policy.delay n := by
  refine Duration.le_of_succ (fun m hm => ?_) hn
  obtain ⟨m, rfl⟩ := Nat.exists_eq_add_of_le' hm
  exact policy.delay_le_succ m

/-- The second delay is no shorter than a first one that is the ceiling or is preserved. -/
theorem delay_zero_le {policy : Policy}
    (h : policy.ceiling ≤ policy.initial ∨ policy.start.current.Preserved) :
    policy.start.current ≤ policy.delay 1 := by
  rw [delay_one]
  rcases h with hceiling | hpreserved
  · have hfirst : policy.start.current = policy.start.policy.ceiling :=
      Duration.min_eq_right hceiling
    rw [advanced_eq_ceiling hfirst]
    exact policy.start_le_ceiling
  · exact le_advanced policy.start_le_ceiling hpreserved

/-- No delay after the first is shorter than the one before it, whatever the policy without
jitter. -/
theorem climbs_after_first (policy : Policy) (unjittered : policy.Unjittered) :
    policy.Climbs where
  drawn n b h pick := by
    rw [delay, ← h.eq_iterate]
    exact h.exists_next unjittered pick
  first := rfl
  later n hn := by
    obtain ⟨n, rfl⟩ := Nat.exists_eq_add_of_le' hn
    exact policy.delay_le_succ n
  least n := by
    rcases Nat.eq_zero_or_pos n with rfl | hn
    · exact .inl (Duration.le_refl _)
    · have hlater := policy.delay_one ▸ policy.delay_one_le hn
      rcases policy.start.le_advanced_or_back policy.start_le_ceiling with
        hle | ⟨back, hback, hle⟩
      · exact .inl (Duration.le_trans hle hlater)
      · exact .inr ⟨back, hback, Duration.le_trans hle hlater⟩
  always_iff := by
    refine ⟨fun h => h 0, fun h n => ?_⟩
    cases n with
    | zero => exact h
    | succ n => exact policy.delay_le_succ n
  least_iff := by
    refine ⟨fun h => h 1, fun h n => ?_⟩
    rcases Nat.eq_zero_or_pos n with rfl | hn
    · exact Duration.le_refl _
    · exact Duration.le_trans h (policy.delay_one_le hn)
  kept h := by
    refine delay_zero_le (h.imp_right ?_)
    rintro (hshort | hpreserved)
    · exact Duration.preserved_of_le hshort
    · exact hpreserved

/-! ## A series that falls

Ninety-seven days and eight nanoseconds are no double: the nearest one is rounded to a
nanosecond less. -/

/-- Settings with that interval from the beginning, which does not grow. -/
def ninetySevenDays : Settings where
  backoff := ⟨.ofNanos 8388608000000008, .ofNanos 8388609000000000, .ofNat 1, .zero⟩
  backoffAfter := 2
  drainPoll := .ofMillis 10

/-- Always the least number of a range. -/
def lowest : Pick := fun low _ => low

theorem unjittered_ninetySevenDays : ninetySevenDays.backoff.Unjittered :=
  .inr (by decide +kernel)

theorem delay_one_ninetySevenDays :
    ninetySevenDays.backoff.delay 1 = .ofNanos 8388608000000007 := by
  have hgrown : ninetySevenDays.backoff.start.grown = .ok (.ofNanos 8388608000000007) := by
    decide +kernel
  rw [delay_one, advanced_of_grown hgrown]

/-- With sound settings and no jitter the second delay is shorter than the first. -/
theorem falls_at_first : ninetySevenDays.problem? = none ∧
    ninetySevenDays.backoff.randomization = .zero ∧ ∃ first second b b',
      ninetySevenDays.backoff.start.next lowest = .ok (first, b) ∧
        b.next lowest = .ok (second, b') ∧ second < first ∧
          second < min ninetySevenDays.backoff.initial ninetySevenDays.backoff.ceiling := by
  have hsteady := unjittered_ninetySevenDays.jitter?_eq_none
  have hsecond : ninetySevenDays.backoff.start.advanced.current = .ofNanos 8388608000000007 :=
    (delay_one _).symm.trans delay_one_ninetySevenDays
  refine ⟨by decide +kernel, rfl, _, _, _, _, next_of_unjittered hsteady lowest,
    next_of_unjittered (by rwa [policy_advanced]) lowest, ?_, ?_⟩
  · rw [hsecond]
    decide +kernel
  · rw [hsecond]
    decide +kernel

/-- Only its second delay is shorter than the one before it. -/
theorem climbs_after_first_ninetySevenDays : ninetySevenDays.backoff.Unjittered ∧
    ninetySevenDays.backoff.Climbs ∧
      ¬ninetySevenDays.backoff.delay 0 ≤ ninetySevenDays.backoff.delay 1 := by
  refine ⟨unjittered_ninetySevenDays, climbs_after_first _ unjittered_ninetySevenDays, ?_⟩
  rw [delay_one_ninetySevenDays]
  decide +kernel

end Policy

end Redelivery
