import Redelivery.Proofs.Rounding

/-!
# Durations in seconds and back

A duration is turned into seconds in three roundings, and a number of seconds into a duration
in one.  A number of seconds below those of a duration gives no longer duration, whatever the
roundings do.  A duration that has come from seconds is not made shorter by the way to seconds
and back, nor is one of up to `2 ^ 23` seconds, about 97 days.  Others may be: from there on,
neighbouring doubles are more than a nanosecond apart.

Main definitions:

* `Duration.units`: the seconds of a duration, in units.
* `Duration.Preserved`: the way to seconds and back makes a duration no shorter.

Main results:

* Theorem `Duration.toSeconds_eq`: the seconds of a duration are that many units.
* Theorem `Duration.ofSeconds_le_of_lt`: fewer seconds give no longer duration.
* Theorem `Duration.preserved_of_le`, Theorem `Duration.preserved_ofSeconds`: durations that
  the way to seconds and back makes no shorter.
-/

namespace Redelivery

namespace Binary64

theorem one_eq : one = 2 ^ unitScale := rfl

theorem representable_one : Representable one := by
  rw [one_eq, ← Nat.one_mul (2 ^ unitScale)]
  exact representable_mul_two_pow (by decide) (by decide)

theorem pos_one : 0 < one := Nat.two_pow_pos _

theorem two_pow_mul_one (j : Nat) : 2 ^ j * one = 2 ^ (j + unitScale) := (Nat.pow_add ..).symm

theorem unitScale_lt : 65 + unitScale < 53 + topShift := by decide

theorem exists_unitScale : ∃ t, unitScale = 53 + t := ⟨1021, rfl⟩

theorem one_eq_mul {t : Nat} (ht : unitScale = 53 + t) : one = 2 ^ 53 * 2 ^ t := by
  rw [one, ht, Nat.pow_add]

/-- Powers of two below the bound of magnitudes. -/
theorem two_pow_lt_limit {j : Nat} (h : j < 53 + topShift) : 2 ^ j < limit := by
  rw [limit, ← Nat.pow_add]
  exact Nat.pow_lt_pow_right (by decide) h

-- What follows compares magnitudes by name; unfolded, the units in one would be computed.
attribute [local irreducible] one unitScale

/-- So many ones are a magnitude, if they have at most 53 bits. -/
theorem dvd_mul_one {m : Nat} (hm : m < 2 ^ 53) : 2 ^ ((m * one).log2 - 52) ∣ m * one := by
  rw [one_eq]
  exact dvd_mul_two_pow hm unitScale

/-- A sum of numbers that are not negative is rounded as it is. -/
theorem add_eq_ofUnits {k l : Nat} (hk : Representable k) (hl : Representable l) :
    (Binary64.finite false k hk).add (.finite false l hl) = ofUnits false (k + l) 1 := by
  have hself : nearest 0 1 = 0 := nearest_self (Nat.dvd_zero _)
  have hlimit : nearest 0 1 < limit := hself ▸ representable_zero.2
  simp only [Binary64.add, signed, Bool.false_eq_true, if_false]
  split
  case isTrue hzero =>
    obtain ⟨rfl, rfl⟩ : k = 0 ∧ l = 0 := by omega
    simp [ofUnits, hself, representable_zero.2]
  case isFalse =>
    have hsign : decide ((k : Int) + l < 0) = false := by
      rw [decide_eq_false_iff_not]
      omega
    rw [hsign, show ((k : Int) + l).natAbs = k + l by omega]

end Binary64

namespace Duration

open Binary64

attribute [local irreducible] one unitScale

/-- The units of the whole seconds. -/
def wholeUnits (d : Duration) : Nat := nearest (d.nanos / nanosPerSecond * one) 1

/-- The units of the nanoseconds within the second. -/
def restUnits (d : Duration) : Nat := nearest (d.nanos % nanosPerSecond * one) nanosPerSecond

/-- The seconds of a duration, in units. -/
def units (d : Duration) : Nat := nearest (d.wholeUnits + d.restUnits) 1

/-! ## Seconds -/

theorem nanos_eq (d : Duration) :
    d.nanos = nanosPerSecond * (d.nanos / nanosPerSecond) + d.nanos % nanosPerSecond :=
  (Nat.div_add_mod ..).symm

/-- The same, in units of a nanosecond. -/
theorem nanos_mul_one (d : Duration) :
    d.nanos * one = nanosPerSecond * (d.nanos / nanosPerSecond * one) +
      d.nanos % nanosPerSecond * one := by
  conv_lhs => rw [d.nanos_eq]
  ring

theorem rest_lt (d : Duration) : d.nanos % nanosPerSecond < nanosPerSecond :=
  Nat.mod_lt _ (by decide)

theorem whole_lt (d : Duration) : d.nanos / nanosPerSecond < 2 ^ 64 :=
  (Nat.div_lt_iff_lt_mul (by decide)).2 d.bounded

/-- The whole seconds are a finite number. -/
theorem ofNat_whole (d : Duration) : d.wholeUnits ≤ 2 ^ (64 + unitScale) ∧
    ∃ representable, Binary64.ofNat (d.nanos / nanosPerSecond) =
      .finite false d.wholeUnits representable := by
  have hwhole : d.nanos / nanosPerSecond * one ≤ 2 ^ (64 + unitScale) * 1 := by
    rw [one_eq, Nat.pow_add, Nat.mul_one]
    exact Nat.mul_le_mul_right _ d.whole_lt.le
  have hscale : 64 + unitScale < 53 + topShift :=
    (Nat.add_lt_add_right (by decide) _).trans unitScale_lt
  exact ⟨nearest_le_of_le (two_pow_dvd_two_pow _) Nat.one_pos hwhole,
    exists_ofUnits (two_pow_lt_limit hscale) Nat.one_pos hwhole⟩

/-- So is what is left of a second. -/
theorem ofNat_rest (d : Duration) : d.restUnits ≤ 2 ^ unitScale ∧
    ∃ representable, (Binary64.ofNat (d.nanos % nanosPerSecond)).divNat nanosPerSecond =
      .finite false d.restUnits representable := by
  have hrest := d.rest_lt
  have hlimit := two_pow_lt_limit ((Nat.le_add_left _ 65).trans_lt unitScale_lt)
  have hscale : 53 + unitScale < 53 + topShift :=
    (Nat.add_lt_add_right (by decide) _).trans unitScale_lt
  have hsmall : d.nanos % nanosPerSecond * one ≤ 2 ^ unitScale * nanosPerSecond := by
    rw [one_eq, Nat.mul_comm]
    exact Nat.mul_le_mul_left _ hrest.le
  -- The nanoseconds are exact before they are divided.
  have hbits : d.nanos % nanosPerSecond < 2 ^ 53 := hrest.trans (by decide)
  have hself := nearest_self (dvd_mul_one hbits)
  have hbound : d.nanos % nanosPerSecond * one ≤ 2 ^ (53 + unitScale) * 1 := by
    rw [one_eq, Nat.pow_add, Nat.mul_one]
    exact Nat.mul_le_mul_right _ hbits.le
  obtain ⟨_, hnat⟩ := exists_ofUnits (two_pow_lt_limit hscale) Nat.one_pos hbound
  refine ⟨nearest_le_of_le (two_pow_dvd_two_pow _) (by decide) hsmall, ?_⟩
  rw [Binary64.ofNat, ofRatio, hnat, divNat, hself]
  exact exists_ofUnits hlimit (by decide) hsmall

/-- The seconds of a duration are a finite number. -/
theorem toSeconds_eq (d : Duration) :
    ∃ representable, d.toSeconds = .finite false d.units representable := by
  obtain ⟨hwhole, _, hwholeEq⟩ := d.ofNat_whole
  obtain ⟨hrest, _, hrestEq⟩ := d.ofNat_rest
  have hsum : d.wholeUnits + d.restUnits ≤ 2 ^ (65 + unitScale) * 1 := by
    rw [Nat.pow_add] at hwhole ⊢
    omega
  rw [toSeconds, hwholeEq, hrestEq, add_eq_ofUnits]
  exact exists_ofUnits (two_pow_lt_limit unitScale_lt) Nat.one_pos hsum

/-- The nanoseconds within the second are rounded by less than a bit past the 53rd. -/
theorem restUnits_near (d : Duration) {t : Nat} (ht : unitScale = 53 + t) :
    2 * (d.nanos % nanosPerSecond * one) ≤
        2 * (d.restUnits * nanosPerSecond) + 2 ^ t * nanosPerSecond ∧
      2 * (d.restUnits * nanosPerSecond) ≤
        2 * (d.nanos % nanosPerSecond * one) + 2 ^ t * nanosPerSecond := by
  have hslack : slack (d.nanos % nanosPerSecond * one) nanosPerSecond ≤ t := by
    apply slack_le (by decide)
    rw [← ht, ← one_eq, Nat.mul_comm one]
    exact Nat.mul_lt_mul_of_pos_right d.rest_lt pos_one
  have hbit : 2 ^ slack (d.nanos % nanosPerSecond * one) nanosPerSecond ≤ 2 ^ t :=
    Nat.pow_le_pow_right (by decide) hslack
  have hdown := le_nearest_add (n := d.nanos % nanosPerSecond * one) (d := nanosPerSecond)
    (by decide)
  have hup := nearest_mul_le (n := d.nanos % nanosPerSecond * one) (d := nanosPerSecond)
  have hbit' := Nat.mul_le_mul_right nanosPerSecond hbit
  unfold restUnits
  constructor
  · linarith
  · linarith

/-- Whole seconds of at most 53 bits are not rounded. -/
theorem wholeUnits_eq {d : Duration} (h : d.nanos / nanosPerSecond < 2 ^ 53) :
    d.wholeUnits = d.nanos / nanosPerSecond * one :=
  nearest_self (dvd_mul_one h)

/-- The nanoseconds within the second are less than a second, in units too. -/
theorem restUnits_lt (d : Duration) : d.restUnits < one := by
  obtain ⟨t, ht⟩ := exists_unitScale
  have hnear := (d.restUnits_near ht).2
  have hrest : (d.nanos % nanosPerSecond + 1) * one ≤ nanosPerSecond * one :=
    Nat.mul_le_mul_right _ d.rest_lt
  have hone := one_eq_mul ht
  have hpos : 0 < 2 ^ t := Nat.two_pow_pos t
  rw [Nat.add_mul, Nat.one_mul] at hrest
  unfold nanosPerSecond at *
  omega

/-! ## Fewer seconds -/

/-- A number of seconds that gives a duration. -/
theorem ofSeconds_eq_ok {k : Nat} {representable : Representable k} {d : Duration}
    (h : ofSeconds? (.finite false k representable) = .ok d) :
    k < tooManyUnits ∧ d = ofNanos (roundDiv (k * nanosPerSecond) one) := by
  rw [ofSeconds?, Bool.false_and, if_neg Bool.false_ne_true] at h
  split at h
  case isTrue hk => exact ⟨hk, (Except.ok.inj h).symm⟩
  case isFalse => cases h

/-- More seconds give no shorter duration. -/
theorem ofSeconds_mono {k l : Nat} {representable : Representable k}
    {representable' : Representable l} {d e : Duration} (hkl : k ≤ l)
    (hd : ofSeconds? (.finite false k representable) = .ok d)
    (he : ofSeconds? (.finite false l representable') = .ok e) : d ≤ e := by
  obtain rfl := (ofSeconds_eq_ok hd).2
  obtain rfl := (ofSeconds_eq_ok he).2
  have hround := roundDiv_mono (Nat.mul_le_mul_right nanosPerSecond hkl) one
  exact min_le_min_right _ hround

/-- Fewer seconds than a duration has give no longer duration. -/
theorem ofSeconds_le_of_lt {d e : Duration} {k : Nat} {representable : Representable k}
    (hk : k < d.units) (he : ofSeconds? (.finite false k representable) = .ok e) : e ≤ d := by
  obtain rfl := (ofSeconds_eq_ok he).2
  have hnanos : roundDiv (k * nanosPerSecond) one ≤ d.nanos := by
    by_cases hfew : d.nanos / nanosPerSecond < 2 ^ 53
    · -- The whole seconds are exact, and what is left is rounded by far less than a nanosecond.
      obtain ⟨t, ht⟩ := exists_unitScale
      have hone := one_eq_mul ht
      have hsum := lt_of_lt_nearest representable.1 Nat.one_pos hk
      have hnear := (d.restUnits_near ht).2
      rw [wholeUnits_eq hfew] at hsum
      apply roundDiv_le_of_lt
      rw [Nat.add_mul, Nat.mul_assoc, nanos_mul_one]
      unfold nanosPerSecond at *
      omega
    · -- What is left of a second is less than half of what the last bit is worth.
      have hlarge : 2 ^ (53 + unitScale) ≤ d.wholeUnits := by
        apply le_nearest_of_le (two_pow_dvd_two_pow _) Nat.one_pos
        rw [Nat.mul_one, ← two_pow_mul_one]
        exact Nat.mul_le_mul_right _ (Nat.not_lt.1 hfew)
      have hne : d.wholeUnits ≠ 0 := Nat.ne_of_gt ((Nat.two_pow_pos _).trans_le hlarge)
      have hlog : 53 + unitScale ≤ d.wholeUnits.log2 := (Nat.le_log2 hne).2 hlarge
      have hbit : 2 ^ (1 + unitScale) ≤ 2 ^ (d.wholeUnits.log2 - 52) :=
        Nat.pow_le_pow_right (by decide) (by omega)
      have hrest : 2 * d.restUnits < 2 ^ (d.wholeUnits.log2 - 52) := by
        have hlt := d.restUnits_lt
        rw [← two_pow_mul_one] at hbit
        omega
      have hunits : d.units ≤ d.wholeUnits := nearest_add_le (nearest_dvd _ _) hrest
      have hwhole := lt_of_lt_nearest representable.1 Nat.one_pos (hk.trans_le hunits)
      apply roundDiv_le_of_le pos_one
      rw [nanos_mul_one, Nat.mul_comm k]
      rw [Nat.mul_one] at hwhole
      exact (Nat.mul_le_mul_left _ hwhole.le).trans (Nat.le_add_right _ _)
  exact (min_le_left _ _).trans hnanos

/-! ## To seconds and back -/

/-- The way to seconds and back makes the duration no shorter. -/
def Preserved (d : Duration) : Prop := ∀ e, ofSeconds? d.toSeconds = .ok e → d ≤ e

/-- A duration that as many seconds give as it has, or fewer, is preserved. -/
theorem preserved_of_le_units {d : Duration} {k : Nat} {representable : Representable k}
    (hd : ofSeconds? (.finite false k representable) = .ok d) (hk : k ≤ d.units) :
    d.Preserved := by
  obtain ⟨hunits, heq⟩ := d.toSeconds_eq
  intro e he
  rw [heq] at he
  exact ofSeconds_mono hk hd he

/-- Whole seconds that are a double are exact. -/
theorem units_of_whole {d : Duration} {s : Nat} (hd : d.nanos = s * nanosPerSecond)
    (hs : 2 ^ ((s * one).log2 - 52) ∣ s * one) : d.units = s * one := by
  have hwhole : d.wholeUnits = s * one := by
    rw [wholeUnits, hd, Nat.mul_div_cancel s (by decide), nearest_self hs]
  have hrest : d.restUnits = 0 := by
    rw [restUnits, hd, Nat.mul_mod_left, Nat.zero_mul]
    exact Nat.le_zero.1 (nearest_le_of_le (Nat.dvd_zero _) (by decide) (Nat.zero_le _))
  rw [units, hwhole, hrest, Nat.add_zero, nearest_self hs]

theorem preserved_of_nanos_le {d : Duration}
    (h : d.nanos ≤ roundDiv (d.units * nanosPerSecond) one) : d.Preserved := by
  obtain ⟨hunits, heq⟩ := d.toSeconds_eq
  intro e he
  rw [heq] at he
  obtain rfl := (ofSeconds_eq_ok he).2
  exact le_min h (Nat.le_sub_one_of_lt d.bounded)

/-- A duration of less than `2 ^ 23` seconds is preserved: doubles are less than a nanosecond
apart there. -/
theorem preserved_of_lt {d : Duration} (h : d.nanos < 2 ^ 23 * nanosPerSecond) :
    d.Preserved := by
  obtain ⟨t, ht⟩ := exists_unitScale
  have hone := one_eq_mul ht
  have hpos : 0 < 2 ^ t := Nat.two_pow_pos t
  have hwhole : d.nanos / nanosPerSecond < 2 ^ 23 := (Nat.div_lt_iff_lt_mul (by decide)).2 h
  have hexact := wholeUnits_eq (hwhole.trans (by decide))
  -- The sum of seconds and rest keeps its bits down to the `2 ^ 30`th part of a second.
  have hsum : d.wholeUnits + d.restUnits < 2 ^ (53 + (t + 23)) * 1 := by
    have hlt := d.restUnits_lt
    have hsucc : (d.nanos / nanosPerSecond + 1) * one ≤ 2 ^ 23 * one :=
      Nat.mul_le_mul_right _ hwhole
    rw [Nat.add_mul] at hsucc
    rw [hexact, show 53 + (t + 23) = 23 + (53 + t) by omega, ← ht, ← two_pow_mul_one]
    omega
  have hbit : 2 ^ slack (d.wholeUnits + d.restUnits) 1 ≤ 2 ^ t * 2 ^ 23 := by
    rw [← Nat.pow_add]
    exact Nat.pow_le_pow_right (by decide) (slack_le Nat.one_pos hsum)
  have hround : 2 * (d.wholeUnits + d.restUnits) ≤
      (2 * d.units + 2 ^ slack (d.wholeUnits + d.restUnits) 1) * 1 := le_nearest_add Nat.one_pos
  have hrest := (d.restUnits_near ht).1
  apply preserved_of_nanos_le
  apply le_roundDiv_of_lt pos_one
  rw [nanos_mul_one, ← hexact]
  unfold nanosPerSecond at *
  omega

/-- A duration of up to `2 ^ 23` seconds is preserved. -/
theorem preserved_of_le {d : Duration} (h : d.nanos ≤ 2 ^ 23 * nanosPerSecond) :
    d.Preserved := by
  rcases Nat.lt_or_eq_of_le h with hlt | heq
  · exact preserved_of_lt hlt
  · have hpos := pos_one
    apply preserved_of_nanos_le
    apply le_roundDiv_of_lt pos_one
    rw [units_of_whole heq (dvd_mul_one (by decide)), heq]
    linarith

/-- A magnitude of at least `2 ^ 52` seconds is one of whole seconds. -/
theorem one_dvd_of_le {k : Nat} (hk : 2 ^ (k.log2 - 52) ∣ k) (h : 2 ^ 52 * one ≤ k) :
    one ∣ k := by
  have hlarge : 2 ^ (52 + unitScale) ≤ k := by rwa [← two_pow_mul_one]
  have hne : k ≠ 0 := Nat.ne_of_gt ((Nat.two_pow_pos _).trans_le hlarge)
  have hlog : 52 + unitScale ≤ k.log2 := (Nat.le_log2 hne).2 hlarge
  rw [one_eq]
  exact (Nat.pow_dvd_pow 2 (Nat.le_sub_of_add_le' hlog)).trans hk

/-- A duration that comes from whole seconds is preserved, as they stay what they are. -/
theorem preserved_of_one_dvd {d : Duration} {k : Nat} {representable : Representable k}
    (hd : ofSeconds? (.finite false k representable) = .ok d) (hwhole : one ∣ k) :
    d.Preserved := by
  obtain ⟨hk, hnanos⟩ := ofSeconds_eq_ok hd
  obtain ⟨s, rfl⟩ := hwhole
  have hpos := pos_one
  have hs : s < 2 ^ 64 := by
    rw [tooManyUnits, Nat.mul_comm] at hk
    exact Nat.lt_of_mul_lt_mul_right hk
  have hround : roundDiv (one * s * nanosPerSecond) one = s * nanosPerSecond := by
    apply Nat.le_antisymm
    · apply roundDiv_le_of_le hpos
      linarith
    · apply le_roundDiv_of_lt hpos
      linarith
  have hseconds : d.nanos = s * nanosPerSecond := by
    rw [hnanos, hround]
    exact nanos_ofNanos (Nat.mul_lt_mul_of_pos_right hs (by decide))
  have hunits : d.units = s * one := by
    apply units_of_whole hseconds
    rw [Nat.mul_comm]
    exact representable.1
  apply preserved_of_le_units hd
  rw [hunits, Nat.mul_comm]

/-- Where doubles are more than a nanosecond apart, the seconds of a duration that comes from
one of them are no less: none is nearer. -/
theorem le_units_of_coarse {d : Duration} {k : Nat} (hk : 2 ^ (k.log2 - 52) ∣ k)
    (hwhole : ¬one ∣ k) (above : 2 ^ 23 * one < k)
    (few : d.nanos / nanosPerSecond < 2 ^ 53)
    (hd : d.nanos = roundDiv (k * nanosPerSecond) one) : k ≤ d.units := by
  have hne : k ≠ 0 := Nat.ne_of_gt (Nat.zero_lt_of_lt above)
  have hlog : 23 + unitScale ≤ k.log2 := by
    rw [Nat.le_log2 hne, ← two_pow_mul_one]
    exact above.le
  -- A power of two would be a number of whole seconds.
  have hpower : 2 ^ k.log2 < k := by
    refine (Nat.log2_self_le hne).lt_of_ne fun heq => hwhole ?_
    rw [← heq, one_eq]
    exact Nat.pow_dvd_pow 2 ((Nat.le_add_left _ _).trans hlog)
  obtain ⟨t, ht⟩ := exists_unitScale
  have hone := one_eq_mul ht
  have hpos : 0 < 2 ^ t := Nat.two_pow_pos t
  have hbit : 2 ^ 24 * 2 ^ t ≤ 2 ^ (k.log2 - 52) := by
    rw [← Nat.pow_add]
    exact Nat.pow_le_pow_right (by decide) (by omega)
  have hnear := (d.restUnits_near ht).1
  have hback := le_roundDiv_add (n := k * nanosPerSecond) pos_one
  rw [← hd, Nat.add_mul, Nat.mul_assoc, nanos_mul_one] at hback
  apply le_nearest_of_near hk hpower Nat.one_pos
  rw [wholeUnits_eq few]
  unfold nanosPerSecond at *
  omega

/-- A duration that comes from seconds is preserved. -/
theorem preserved_ofSeconds {d : Duration} {k : Nat} {representable : Representable k}
    (hd : ofSeconds? (.finite false k representable) = .ok d) : d.Preserved := by
  by_cases hwhole : one ∣ k
  · exact preserved_of_one_dvd hd hwhole
  by_cases hshort : d.nanos ≤ 2 ^ 23 * nanosPerSecond
  · exact preserved_of_le hshort
  have hbelow : k < 2 ^ 52 * one := by
    by_contra hle
    exact hwhole (one_dvd_of_le representable.1 (Nat.not_lt.1 hle))
  have hround : roundDiv (k * nanosPerSecond) one ≤ 2 ^ 52 * nanosPerSecond := by
    apply roundDiv_le_of_le pos_one
    have hle := Nat.mul_le_mul_right nanosPerSecond hbelow.le
    linarith
  have hseconds : d.nanos = roundDiv (k * nanosPerSecond) one := by
    rw [(ofSeconds_eq_ok hd).2]
    exact nanos_ofNanos (hround.trans_lt (by decide))
  have hfew : d.nanos / nanosPerSecond < 2 ^ 53 := by
    rw [Nat.div_lt_iff_lt_mul (by decide), hseconds]
    exact hround.trans_lt (by decide)
  have habove : 2 ^ 23 * one < k := by
    by_contra hle
    apply hshort
    rw [hseconds]
    apply roundDiv_le_of_le pos_one
    have hle := Nat.mul_le_mul_right nanosPerSecond (Nat.not_lt.1 hle)
    linarith
  exact preserved_of_le_units hd
    (le_units_of_coarse representable.1 hwhole habove hfew hseconds)

end Duration

end Redelivery
