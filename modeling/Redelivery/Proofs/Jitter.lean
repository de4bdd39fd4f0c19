import Redelivery.Proofs.Delays
import Redelivery.Proofs.Settings.Saved

/-!
# Delays that are none

A delay of a policy with jitter is drawn from a range around the interval, which may reach
beyond what durations can have.  A call for a delay breaks off just when what is drawn has
reached `2 ^ 64` seconds; nothing else that is computed on the way fails, whatever the numbers
of the policy are.  The intervals of settings that were loaded are too short for that.

Main definitions:

* `Duration.bound`: the seconds from which on there is no duration.
* `Backoff.Breaks`: when the calls for a delay break off.
* `Pick.Within`: what is picked lies in the range.

Main results:

* Theorem `Backoff.range_spread`: a range is one of finite numbers around the interval.
* Theorem `Duration.ofSeconds_eq_error`: when what is drawn is no duration.
* Theorem `Backoff.breaks_beyond_bound`: calls break off only beyond the bound, and never for
  settings that were loaded.
-/

namespace Redelivery

namespace Binary64

/-- What is at most a number is not at least a larger one. -/
theorem le_eq_false {x : Binary64} {k l : Nat} {representable : Representable k}
    {representable' : Representable l} (h : x.le (.finite false k representable) = true)
    (hlt : k < l) : (Binary64.finite false l representable').le x = false := by
  cases x with
  | nan => rfl
  | infinite s =>
      obtain rfl : s = true := h
      rfl
  | finite s m _ =>
      simp only [Binary64.le, signed, Bool.false_eq_true, if_false, decide_eq_true_eq,
        decide_eq_false_iff_not] at h ⊢
      omega

/-- What is compared is a number, and not less than itself. -/
theorem le_self_of_le {x y : Binary64} (h : x.le y = true) : x.le x = true ∧ y.le y = true := by
  have hself : ∀ x : Binary64, x ≠ .nan → x.le x = true := by
    intro x hx
    cases x with
    | nan => exact absurd rfl hx
    | infinite s => cases s <;> rfl
    | finite => simp [Binary64.le]
  refine ⟨hself x ?_, hself y ?_⟩
  · rintro rfl
    cases h
  · rintro rfl
    cases x <;> cases h

theorem le_finite_of_le {k l : Nat} {representable : Representable k}
    {representable' : Representable l} (h : k ≤ l) :
    (Binary64.finite false k representable).le (.finite false l representable') = true := by
  simpa only [Binary64.le, signed, Bool.false_eq_true, if_false, decide_eq_true_eq] using
    Int.ofNat_le.2 h

end Binary64

namespace Duration

open Binary64

attribute [local irreducible] one unitScale tooManyUnits

/-- The seconds from which on there is no duration. -/
def bound : Binary64 := .ofNat (2 ^ 64)

theorem tooManyUnits_eq : tooManyUnits = 2 ^ (64 + unitScale) := by
  rw [tooManyUnits, two_pow_mul_one]

theorem bound_eq : ∃ representable, bound = .finite false tooManyUnits representable := by
  have hself : nearest (2 ^ 64 * one) 1 = tooManyUnits := by
    rw [two_pow_mul_one, ← tooManyUnits_eq, tooManyUnits_eq]
    exact nearest_self (two_pow_dvd_two_pow _)
  have hscale : 64 + unitScale < 53 + topShift :=
    (Nat.add_lt_add_right (by decide) _).trans unitScale_lt
  have hle : 2 ^ 64 * one ≤ 2 ^ (64 + unitScale) * 1 := by
    rw [two_pow_mul_one, Nat.mul_one]
  obtain ⟨representable, heq⟩ := exists_ofUnits (two_pow_lt_limit hscale) Nat.one_pos hle
  rw [bound, Binary64.ofNat, ofRatio, heq]
  exact ⟨hself ▸ representable, by simp only [hself]⟩

/-- A duration of less than a power of two of seconds has at most twice as many units. -/
theorem units_le_of_lt {d : Duration} {j : Nat} (h : d.nanos / nanosPerSecond < 2 ^ j) :
    d.units ≤ 2 ^ (j + 1 + unitScale) := by
  have hwhole : d.wholeUnits ≤ 2 ^ (j + unitScale) := by
    apply nearest_le_of_le (two_pow_dvd_two_pow _) Nat.one_pos
    rw [Nat.mul_one, ← two_pow_mul_one]
    exact Nat.mul_le_mul_right _ h.le
  have hrest : d.restUnits ≤ 2 ^ (j + unitScale) := by
    refine d.restUnits_lt.le.trans ?_
    rw [one_eq]
    exact Nat.pow_le_pow_right (by decide) (Nat.le_add_left _ _)
  apply nearest_le_of_le (two_pow_dvd_two_pow _) Nat.one_pos
  rw [show j + 1 + unitScale = j + unitScale + 1 by omega, Nat.pow_succ]
  omega

/-- All durations have at most as many units as the bound. -/
theorem units_le (d : Duration) : d.units ≤ tooManyUnits := by
  obtain ⟨representable, heq⟩ := d.toSeconds_eq
  have hbound := d.atMost_toSeconds
  rw [heq] at hbound
  cases hbound with
  | intro hle => exact hle

/-- What is drawn, a negative number counting as none, is no duration if it reaches the bound. -/
theorem ofSeconds_eq_error {x : Binary64} {reason : OutOfRange} :
    ofSeconds? (Backoff.atLeastZero x) = .error reason ↔
      reason = .tooLong ∧ bound.le x = true := by
  obtain ⟨representable, hbound⟩ := bound_eq
  have hpos : 0 < tooManyUnits := tooManyUnits_eq ▸ Nat.two_pow_pos _
  have hzero : ofSeconds? .zero ≠ .error reason := by
    rw [Binary64.zero, ofSeconds?, Bool.false_and, if_neg Bool.false_ne_true, if_pos hpos]
    rintro ⟨⟩
  rw [hbound]
  cases x with
  | nan => exact ⟨fun h => absurd h hzero, fun h => absurd h.2 Bool.false_ne_true⟩
  | infinite s =>
      cases s with
      | true => exact ⟨fun h => absurd h hzero, fun h => absurd h.2 Bool.false_ne_true⟩
      | false => exact ⟨fun h => ⟨(Except.error.inj h).symm, rfl⟩, fun h => h.1 ▸ rfl⟩
  | finite s k hk =>
      by_cases hpositive : Binary64.zero.lt (.finite s k hk) = true
      · rw [Backoff.atLeastZero, if_pos hpositive]
        cases s with
        | true =>
            simp only [Binary64.zero, Binary64.lt, signed, Bool.false_eq_true, if_false, if_true,
              decide_eq_true_eq] at hpositive
            omega
        | false =>
            rw [ofSeconds?, Bool.false_and, if_neg Bool.false_ne_true]
            simp only [Binary64.le, signed, Bool.false_eq_true, if_false, decide_eq_true_eq]
            split
            case isTrue hlt =>
              constructor
              · rintro ⟨⟩
              · intro h
                omega
            case isFalse hge =>
              exact ⟨fun h => ⟨(Except.error.inj h).symm, by omega⟩, fun h => h.1 ▸ rfl⟩
      · rw [Backoff.atLeastZero, if_neg hpositive]
        refine ⟨fun h => absurd h hzero, fun h => absurd h.2 ?_⟩
        cases s <;> simp only [Binary64.zero, Binary64.lt, Binary64.le, signed,
          Bool.false_eq_true, if_false, if_true, decide_eq_true_eq] at hpositive ⊢ <;> omega

end Duration

/-- What is picked lies between the two numbers, if anything does. -/
def Pick.Within (pick : Pick) : Prop :=
  ∀ low high, low.le high = true →
    low.le (pick low high) = true ∧ (pick low high).le high = true

namespace Backoff

open Binary64 Duration

attribute [local irreducible] one unitScale tooManyUnits

/-! ## The range of a delay -/

/-- The share of a jitter is at most one. -/
theorem jitter?_eq_some {randomization share : Binary64} (h : jitter? randomization = some share) :
    Binary64.zero.lt randomization = true ∧
      ∃ k representable, share = .finite false k representable ∧ k ≤ one := by
  unfold jitter? at h
  split at h
  case isFalse => cases h
  case isTrue hpositive =>
    refine ⟨hpositive, ?_⟩
    split at h
    case isFalse =>
      obtain rfl := Option.some.inj h
      exact ⟨one, _, ofNat_one, Nat.le_refl _⟩
    case isTrue hlt =>
      obtain rfl := Option.some.inj h
      rw [ofNat_one] at hlt
      cases randomization with
      | nan => cases hlt
      | infinite s =>
          obtain rfl : s = true := hlt
          cases hpositive
      | finite s k hk =>
          simp only [Binary64.zero, Binary64.lt, signed, Bool.false_eq_true, if_false,
            decide_eq_true_eq] at hpositive hlt
          cases s with
          | true =>
              simp only [if_true] at hpositive
              omega
          | false =>
              simp only [Bool.false_eq_true, if_false] at hlt
              exact ⟨k, hk, rfl, by omega⟩

/-- The bounds of a delay with these seconds. -/
structure Spread (seconds : Nat) (low high : Binary64) : Prop where
  low : ∃ l representable, low = .finite false l representable ∧ l ≤ seconds
  high : ∃ h representable, high = .finite false h representable ∧ seconds ≤ h ∧
    ∀ j, 2 * seconds ≤ 2 ^ j → h ≤ 2 ^ j

/-- A share of some seconds is no more than them. -/
theorem mul_share {k l : Nat} (hk : Representable k) (hl : Representable l) (share : l ≤ one) :
    ∃ r representable, (Binary64.finite false k hk).mul (.finite false l hl) =
      .finite false r representable ∧ r ≤ k := by
  have hle : k * l ≤ k * one := Nat.mul_le_mul_left _ share
  have hnearest := nearest_le_of_le hk.1 pos_one hle
  refine ⟨nearest (k * l) one, ⟨nearest_dvd _ _, hnearest.trans_lt hk.2⟩, ?_, hnearest⟩
  rw [Binary64.mul, Bool.false_xor, ofUnits, dif_pos (hnearest.trans_lt hk.2)]

theorem sub_eq_finite {k r : Nat} (hk : Representable k) {hr : Representable r} (h : r ≤ k) :
    ∃ l representable, (Binary64.finite false k hk).sub (.finite false r hr) =
      .finite false l representable ∧ l ≤ k := by
  have hsum : signed false k + signed (!false) r = ((k - r : Nat) : Int) := by
    simp only [signed, Bool.false_eq_true, if_false, Bool.not_false, if_true]
    omega
  have hle : k - r ≤ k * 1 := by omega
  have hnearest := nearest_le_of_le hk.1 Nat.one_pos hle
  rw [Binary64.sub, Binary64.neg, Binary64.add, hsum]
  split
  case isTrue => exact ⟨0, representable_zero, rfl, Nat.zero_le _⟩
  case isFalse =>
    refine ⟨nearest (k - r) 1, ⟨nearest_dvd _ _, hnearest.trans_lt hk.2⟩, ?_, hnearest⟩
    rw [decide_eq_false (by omega), Int.natAbs_natCast, ofUnits,
      dif_pos (hnearest.trans_lt hk.2)]

theorem add_eq_finite {k r : Nat} {j : Nat} (hk : Representable k) {hr : Representable r}
    (h : r ≤ k) (hj : 2 ^ j < limit) (few : 2 * k ≤ 2 ^ j) :
    ∃ s representable, (Binary64.finite false k hk).add (.finite false r hr) =
      .finite false s representable ∧ k ≤ s ∧ ∀ j, 2 * k ≤ 2 ^ j → s ≤ 2 ^ j := by
  have hle : k + r ≤ 2 ^ j * 1 := by omega
  obtain ⟨representable, heq⟩ := exists_ofUnits hj Nat.one_pos hle
  refine ⟨_, representable, (add_eq_ofUnits hk hr).trans heq, ?_, ?_⟩
  · exact le_nearest_of_le hk.1 Nat.one_pos (by omega)
  · intro i hi
    exact nearest_le_of_le (two_pow_dvd_two_pow i) Nat.one_pos (by omega)

/-- The range of a delay is one of finite numbers around its interval. -/
theorem range_spread {interval : Duration} {randomization low high : Binary64}
    (h : range interval randomization = some (low, high)) :
    interval.isZero = false ∧ Binary64.zero.lt randomization = true ∧
      Spread interval.units low high := by
  unfold range at h
  split at h
  case isTrue => cases h
  case isFalse hzero =>
    rcases Option.map_eq_some_iff.1 h with ⟨share, hshare, heq⟩
    rcases jitter?_eq_some hshare with ⟨hpositive, k, hk, rfl, hone⟩
    obtain ⟨hunits, hseconds⟩ := interval.toSeconds_eq
    rw [hseconds] at heq
    obtain ⟨r, hr, hreach, hle⟩ := mul_share hunits hk hone
    dsimp only at heq
    rw [hreach] at heq
    obtain ⟨rfl, rfl⟩ := Prod.mk.inj heq
    have hfew : 2 * interval.units ≤ 2 ^ (65 + unitScale) := by
      have hbound := interval.units_le
      rw [tooManyUnits_eq] at hbound
      rw [show 65 + unitScale = 64 + unitScale + 1 by omega, Nat.pow_succ]
      omega
    exact ⟨Bool.not_eq_true _ ▸ hzero, hpositive, sub_eq_finite hunits hle,
      add_eq_finite hunits hle (two_pow_lt_limit unitScale_lt) hfew⟩

theorem isNaN_of_lt {x : Binary64} (h : Binary64.zero.lt x = true) : x.isNaN = false := by
  cases x with
  | nan => cases h
  | infinite | finite => rfl

/-! ## Calls that break off -/

/-- What a call for a delay draws, if it draws at all. -/
def drawn? (pick : Pick) (b : Backoff) : Option Binary64 :=
  (range b.current b.policy.randomization).map fun (low, high) => pick low high

/-- A call breaks off just where what it draws has reached the bound. -/
theorem next_eq_error {pick : Pick} {b : Backoff} {reason : OutOfRange} :
    b.next pick = .error reason ↔
      reason = .tooLong ∧ ∃ x, b.drawn? pick = some x ∧ bound.le x = true := by
  have hdelay : b.next pick = .error reason ↔
      delay pick b.current b.policy.randomization = .error reason := by
    rw [next_eq]
    cases delay pick b.current b.policy.randomization with
    | error => simp [Except.map]
    | ok => simp [Except.map]
  rw [hdelay, delay, drawn?]
  cases range b.current b.policy.randomization with
  | none => simp
  | some bounds => simp [ofSeconds_eq_error]

/-- When the calls for a delay break off.

* The interval after the present one can always be computed.
* A delay is drawn from a range of finite numbers around the interval.
* The call breaks off exactly if there is jitter, the interval is not zero, and what is drawn has
  reached the bound of durations; and it says so. -/
structure Breaks (b : Backoff) : Prop where
  grows : ∃ interval, b.grown = .ok interval
  spread : ∀ low high, range b.current b.policy.randomization = some (low, high) →
    low.isFinite = true ∧ high.isFinite = true ∧ Binary64.zero.le low = true ∧
      low.le b.current.toSeconds = true ∧ b.current.toSeconds.le high = true
  breaks_iff : ∀ pick, (∃ reason, b.next pick = .error reason) ↔
    b.policy.randomization.isNaN = false ∧ Binary64.zero.lt b.policy.randomization = true ∧
      b.current.isZero = false ∧ ∃ low high,
        range b.current b.policy.randomization = some (low, high) ∧
          bound.le (pick low high) = true
  reason : ∀ pick reason, b.next pick = .error reason → reason = .tooLong

/-- So it is with any series. -/
theorem breaks (b : Backoff) : b.Breaks where
  grows := b.exists_grown
  spread low high h := by
    rcases range_spread h with ⟨-, -, ⟨l, hl, rfl, hlow⟩, u, hu, rfl, hhigh, -⟩
    obtain ⟨hunits, hseconds⟩ := b.current.toSeconds_eq
    rw [hseconds]
    exact ⟨rfl, rfl, le_finite_of_le (Nat.zero_le _), le_finite_of_le hlow,
      le_finite_of_le hhigh⟩
  breaks_iff pick := by
    constructor
    · rintro ⟨reason, h⟩
      rcases next_eq_error.1 h with ⟨-, x, hx, hbound⟩
      rcases Option.map_eq_some_iff.1 hx with ⟨⟨low, high⟩, hrange, rfl⟩
      rcases range_spread hrange with ⟨hpositive, hjitter, -⟩
      exact ⟨isNaN_of_lt hjitter, hjitter, hpositive, low, high, hrange, hbound⟩
    · rintro ⟨-, -, -, low, high, hrange, hbound⟩
      exact ⟨_, next_eq_error.2 ⟨rfl, _, by rw [drawn?, hrange]; rfl, hbound⟩⟩
  reason pick reason h := (next_eq_error.1 h).1

/-! ## Settings that were loaded -/

/-- An interval of less than `2 ^ 55` seconds has a delay, whatever is drawn for it. -/
theorem exists_next_of_lt {b : Backoff} (short : b.current.nanos / nanosPerSecond < 2 ^ 55)
    {pick : Pick} (within : pick.Within) : ∃ wait, b.next pick = .ok (wait, b.advanced) := by
  cases hnext : b.next pick with
  | ok drawn => exact ⟨drawn.1, by rw [← next_eq_ok hnext]⟩
  | error reason =>
      rcases next_eq_error.1 hnext with ⟨-, x, hx, hbound⟩
      rcases Option.map_eq_some_iff.1 hx with ⟨⟨low, high⟩, hrange, rfl⟩
      rcases range_spread hrange with ⟨-, -, ⟨l, hl, rfl, hlow⟩, u, hu, rfl, hhigh, hfew⟩
      -- The range ends at twice the interval, far below the bound.
      have hdouble : 2 * b.current.units ≤ 2 ^ (57 + unitScale) := by
        have hunits := units_le_of_lt short
        rw [show 57 + unitScale = 55 + 1 + unitScale + 1 by omega, Nat.pow_succ]
        omega
      have hlt : u < tooManyUnits := by
        rw [tooManyUnits_eq]
        exact (hfew _ hdouble).trans_lt (Nat.pow_lt_pow_right (by decide) (by omega))
      have hpicked := (within (.finite false l hl) (.finite false u hu)
        (le_finite_of_le (hlow.trans hhigh))).2
      obtain ⟨_, heq⟩ := bound_eq
      rw [heq] at hbound
      exact absurd hbound (Bool.eq_false_iff.1 (le_eq_false hpicked hlt))

/-- The ceiling of settings that were loaded is less than `2 ^ 55` seconds. -/
theorem nanos_lt_of_parse {text : String} {settings : Settings}
    (h : Settings.parse text = .ok settings) :
    settings.backoff.ceiling.nanos / nanosPerSecond < 2 ^ 55 := by
  obtain ⟨ms, hms⟩ := (Settings.inMillis_of_parse h).1.backoff.ceiling
  have hlt := ms.toNat_lt
  rw [hms]
  change ms.toNat * nanosPerMilli / nanosPerSecond < 2 ^ 55
  unfold nanosPerMilli nanosPerSecond
  omega

/-- Whatever settings that were loaded have come to, there is a next delay. -/
theorem exists_next_of_parse {text : String} {settings : Settings}
    (h : Settings.parse text = .ok settings) {n : Nat} {b : Backoff}
    (reached : b = advanced^[n] settings.backoff.start) {pick : Pick} (within : pick.Within) :
    ∃ wait, b.next pick = .ok (wait, b.advanced) := by
  have hcapped : b.current ≤ settings.backoff.ceiling :=
    reached ▸ iterate_le_ceiling settings.backoff n
  exact exists_next_of_lt ((Nat.div_le_div_right hcapped).trans_lt (nanos_lt_of_parse h)) within

/-- The calls for a delay break off only where what is drawn has reached the bound, whatever
the policy and whatever was drawn before.  Those of settings that were loaded never do, as long
as what is picked lies in the range. -/
theorem breaks_beyond_bound :
    (∀ policy n b, Reached policy n b → b.policy = policy ∧ b.Breaks) ∧
      ∀ text settings, Settings.parse text = .ok settings →
        ∀ n b, Reached settings.backoff n b → ∀ pick : Pick, pick.Within →
          ∃ wait b', b.next pick = .ok (wait, b') := by
  refine ⟨fun policy n b h => ⟨h.policy_eq, b.breaks⟩, ?_⟩
  intro text settings hparse n b hreached pick hwithin
  obtain ⟨wait, hnext⟩ := exists_next_of_parse hparse hreached.eq_iterate hwithin
  exact ⟨wait, b.advanced, hnext⟩

/-- The longest interval from the beginning, jittered by half of it. -/
def farthest : Policy := ⟨.ofNanos (2 ^ 64 * nanosPerSecond), .ofNanos (2 ^ 64 * nanosPerSecond),
  .ofNat 1, .ofRatio false 1 2⟩

/-- Picks the larger bound. -/
def highest : Pick := fun _ high => high

theorem within_highest : highest.Within := fun _ _ h => ⟨h, (le_self_of_le h).2⟩

/-- Of the longest interval that there is the upper bound is none, but not of the longest that
can be loaded. -/
theorem breaks_beyond_bound_farthest :
    Reached farthest 0 farthest.start ∧ farthest.start.Breaks ∧
      farthest.start.next highest = .error .tooLong ∧
      Settings.parse Settings.longestText = .ok Settings.longest ∧ highest.Within ∧
      Reached Settings.longest.backoff 0 Settings.longest.backoff.start ∧
      ∃ wait b', Settings.longest.backoff.start.next highest = .ok (wait, b') := by
  obtain ⟨hany, hloaded⟩ := breaks_beyond_bound
  have hbreaks : farthest.start.next highest = .error .tooLong := by decide +kernel
  exact ⟨.start, (hany farthest 0 _ .start).2, hbreaks, Settings.parse_longestText,
    within_highest, .start,
    hloaded _ _ Settings.parse_longestText 0 _ .start highest within_highest⟩

end Backoff

end Redelivery
