import Mathlib.Logic.Function.Iterate
import Redelivery.Proofs.Binary64
import Redelivery.Backoff

/-!
# The series of delays

The intervals of a backoff do not depend on the delays that are drawn from them: each has one
successor, which is always a duration.  A delay can be none, of a policy with jitter; of one
without, it is the interval.

Main definitions:

* `Backoff.advanced`: the series after one more delay.
* `Backoff.delayAfter`: a delay of the series, by how many come before it.

Main results:

* Theorem `Backoff.exists_grown`: there is always a next interval.
* Theorem `Backoff.next_eq`: a delay is drawn from the interval, and advances the series by one.
* Theorem `Backoff.next_of_unjittered`: without jitter the next delay is the interval.
* Theorem `Backoff.delayAfter_of_unjittered`: and so is any later one.
-/

namespace Redelivery

/-- A delay that is not none takes at least a tick of the clock. -/
theorem Duration.clockMillis_pos {delay : Duration} (positive : delay.isZero = false) :
    0 < delay.clockMillis := by
  have hnanos : delay.nanos ≠ 0 := by simpa [Duration.isZero] using positive
  unfold Duration.clockMillis nanosPerMilli
  omega

namespace Backoff

open Binary64

theorem ofNat_one : Binary64.ofNat 1 = .finite false one (by decide +kernel) := by
  decide +kernel

/-- The factor that is used is not negative. -/
theorem nonNegative_factor (b : Backoff) : NonNegative b.factor := by
  unfold factor
  rw [ofNat_one]
  split
  case isTrue hle =>
    cases hmultiplier : b.policy.multiplier with
    | nan => simp [hmultiplier, Binary64.le] at hle
    | infinite negative =>
        obtain rfl : negative = false := by simpa [hmultiplier, Binary64.le] using hle
        exact .infinite
    | finite negative units representable =>
        have hone : 0 < one := Nat.two_pow_pos _
        obtain rfl : negative = false := by
          cases negative with
          | false => rfl
          | true =>
              simp only [hmultiplier, Binary64.le, signed, if_true, Bool.false_eq_true,
                if_false, decide_eq_true_eq] at hle
              omega
        exact .finite
  case isFalse => exact .finite

/-- There is always a next interval. -/
theorem exists_grown (b : Backoff) : ∃ interval, b.grown = .ok interval := by
  by_cases hlt : (b.current.toSeconds.mul b.factor).lt b.policy.ceiling.toSeconds = true
  · have hbound := Duration.atMost_toSeconds b.policy.ceiling
    rcases (Duration.atMost_toSeconds b.current).nonNegative.mul b.nonNegative_factor with
      hnan | hproduct
    · rw [hnan] at hlt
      cases hlt
    · rcases hproduct.finite_of_lt hlt hbound with ⟨units, representable, heq, hunits⟩
      rcases Duration.exists_ofSeconds hunits with ⟨interval, hinterval⟩
      refine ⟨interval, ?_⟩
      simp only [grown]
      rw [if_pos hlt, heq, hinterval]
  · refine ⟨b.policy.ceiling, ?_⟩
    simp only [grown]
    rw [if_neg hlt]

-- What follows compares intervals by name; unfolded, they would be computed bit by bit.
attribute [local irreducible] grown

/-- The series at another interval, if it is one. -/
def goOn (b : Backoff) : Except Duration.OutOfRange Duration → Backoff
  | .ok current => { b with current }
  | .error _ => b

/-- The series after one more delay. -/
@[irreducible]
def advanced (b : Backoff) : Backoff := b.goOn b.grown

theorem advanced_of_grown {b : Backoff} {current : Duration} (h : b.grown = .ok current) :
    b.advanced = { b with current } := by
  unfold advanced
  rw [h]
  rfl

theorem grown_eq (b : Backoff) : b.grown = .ok b.advanced.current := by
  rcases b.exists_grown with ⟨interval, h⟩
  rw [advanced_of_grown h, h]

@[simp]
theorem policy_advanced (b : Backoff) : b.advanced.policy = b.policy := by
  rw [advanced_of_grown b.grown_eq]

@[simp]
theorem policy_iterate (b : Backoff) (n : Nat) : (advanced^[n] b).policy = b.policy := by
  induction n with
  | zero => rfl
  | succ n ih => rw [Function.iterate_succ_apply', policy_advanced, ih]

theorem next_of_grown {pick : Pick} {b : Backoff} {current : Duration}
    (h : b.grown = .ok current) :
    b.next pick = (delay pick b.current b.policy.randomization).map (·, { b with current }) := by
  unfold next
  rw [h]
  cases delay pick b.current b.policy.randomization with
  | error reason => rfl
  | ok wait => rfl

/-- A delay is drawn from the present interval, and advances the series by one. -/
theorem next_eq (pick : Pick) (b : Backoff) :
    b.next pick = (delay pick b.current b.policy.randomization).map (·, b.advanced) := by
  rw [next_of_grown b.grown_eq, ← advanced_of_grown b.grown_eq]

theorem next_eq_ok {pick : Pick} {b b' : Backoff} {wait : Duration}
    (h : b.next pick = .ok (wait, b')) : b' = b.advanced := by
  rw [next_eq] at h
  cases hdelay : delay pick b.current b.policy.randomization with
  | error reason => simp [hdelay, Except.map] at h
  | ok wait' =>
      rw [hdelay] at h
      exact (Prod.mk.inj (Except.ok.inj h)).2.symm

/-- Without jitter the next delay is the present interval. -/
theorem next_of_unjittered {b : Backoff} (steady : jitter? b.policy.randomization = none)
    (pick : Pick) : b.next pick = .ok (b.current, b.advanced) := by
  have hdelay : delay pick b.current b.policy.randomization = .ok b.current := by
    have hrange : range b.current b.policy.randomization = none := by
      unfold range
      split
      · rfl
      · rw [steady]
        rfl
    rw [delay, hrange]
  rw [next_eq, hdelay, Except.map]

/-- The delay of a series that comes after so many others. -/
def delayAfter (pick : Pick) : Nat → Backoff → Except Duration.OutOfRange Duration
  | 0, b => (b.next pick).map Prod.fst
  | n + 1, b => do
      let (_, b) ← b.next pick
      delayAfter pick n b

/-- Without jitter a delay of the series is the interval that it has come to. -/
theorem delayAfter_of_unjittered {b : Backoff}
    (steady : jitter? b.policy.randomization = none) (pick : Pick) (n : Nat) :
    delayAfter pick n b = .ok (advanced^[n] b).current := by
  induction n generalizing b with
  | zero => rw [delayAfter, next_of_unjittered steady, Except.map, Function.iterate_zero_apply]
  | succ n ih =>
      rw [delayAfter, next_of_unjittered steady, Function.iterate_succ_apply]
      exact ih (by rwa [policy_advanced])

end Backoff

end Redelivery
