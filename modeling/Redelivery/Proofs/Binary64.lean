import Mathlib.Tactic.Linarith
import Redelivery.Duration

/-!
# Bounds of rounded numbers

Rounding does not carry a number past a power of two, unless the number itself is past it
by more than half of what the last bit there is worth.  So a sum of seconds and of parts of
a second stays below the bound of durations, or is that bound.

Main definitions:

* `Binary64.NonNegative`, `Binary64.AtMost`: a number that is not negative, and one that
  has a bound.

Main results:

* Theorem `Binary64.nearest_le`: rounding stops at a power of two.
* Theorem `Duration.atMost_toSeconds`: a duration has no more seconds than durations can have.
* Theorem `Duration.exists_ofSeconds`: a number of seconds below that bound is a duration.
-/

namespace Redelivery

/-- A quotient that is nearer to `q` than to the next number is not rounded past `q`. -/
theorem roundDiv_le_of_lt {n d q : Nat} (h : 2 * n < (2 * q + 1) * d) : roundDiv n d ≤ q := by
  have hdivision := Nat.div_add_mod n d
  have hd : 0 < d := by
    apply Nat.pos_of_ne_zero
    rintro rfl
    simp at h
  have hfloor : n / d ≤ q := by
    apply Nat.le_of_lt_succ
    rw [Nat.div_lt_iff_lt_mul hd]
    linarith
  rcases Nat.lt_or_eq_of_le hfloor with hlt | heq
  · exact (roundDiv_le n d).trans hlt
  · rw [heq] at hdivision
    have hlow : 2 * (n % d) < d := by linarith
    rw [roundDiv, if_pos hlow]
    exact hfloor

namespace Binary64

/-- Rounding stops at a power of two. -/
theorem nearest_le {n d t : Nat} (h : 2 * n < (2 ^ 53 + 1) * (d * 2 ^ t)) :
    nearest n d ≤ 2 ^ (52 + t) := by
  have hd : 0 < d := by
    apply Nat.pos_of_ne_zero
    rintro rfl
    simp at h
  by_cases hlow : n < 2 ^ (52 + t) * d
  · -- The quotient is below the power, and has no more bits to give up than the power.
    have hquotient : n / d < 2 ^ (52 + t) := (Nat.div_lt_iff_lt_mul hd).2 hlow
    have hslack : slack n d ≤ t := by
      have hlog : (n / d).log2 ≤ 52 + t := by
        by_cases hzero : n / d = 0
        · simp [hzero]
        · exact Nat.le_of_lt ((Nat.log2_lt hzero).2 hquotient)
      unfold slack
      omega
    have hpower : 2 ^ (52 + t) = 2 ^ (52 + t - slack n d) * 2 ^ slack n d := by
      rw [← Nat.pow_add]
      congr 1
      omega
    have hround : roundDiv n (d * 2 ^ slack n d) ≤ 2 ^ (52 + t - slack n d) := by
      apply roundDiv_le_of_lt
      rw [hpower] at hlow
      nlinarith [Nat.two_pow_pos (slack n d)]
    rw [nearest, hpower]
    exact Nat.mul_le_mul_right _ hround
  · -- The quotient has just the bits of the power.
    have hquotient : 2 ^ (52 + t) ≤ n / d := (Nat.le_div_iff_mul_le hd).2 (by omega)
    have hslack : slack n d = t := by
      have hnext : n / d < 2 ^ (52 + t + 1) := by
        rw [Nat.div_lt_iff_lt_mul hd, Nat.pow_succ, Nat.pow_add]
        nlinarith [Nat.two_pow_pos t]
      have hne : n / d ≠ 0 := by
        have hpos := Nat.two_pow_pos (52 + t)
        omega
      have hlog : (n / d).log2 < 52 + t + 1 := (Nat.log2_lt hne).2 hnext
      have hlog' : 52 + t ≤ (n / d).log2 := (Nat.le_log2 hne).2 hquotient
      unfold slack
      omega
    have hround : roundDiv n (d * 2 ^ slack n d) ≤ 2 ^ 52 := by
      apply roundDiv_le_of_lt
      rw [hslack]
      exact h
    rw [nearest, Nat.pow_add, hslack]
    rw [hslack] at hround
    exact Nat.mul_le_mul_right _ hround

/-- The number is none that would be negative, not even a zero. -/
inductive NonNegative : Binary64 → Prop
  | infinite : NonNegative (.infinite false)
  | finite {units : Nat} {representable : Representable units} :
      NonNegative (.finite false units representable)

theorem nonNegative_ofUnits (n d : Nat) : NonNegative (ofUnits false n d) := by
  unfold ofUnits
  split
  · exact .finite
  · exact .infinite

/-- A product is not negative, if it is a number. -/
theorem NonNegative.mul {x y : Binary64} (hx : NonNegative x) (hy : NonNegative y) :
    x.mul y = .nan ∨ NonNegative (x.mul y) := by
  cases hx with
  | infinite =>
      cases hy with
      | infinite => exact .inr .infinite
      | finite =>
          simp only [Binary64.mul]
          split
          · exact .inl rfl
          · exact .inr .infinite
  | finite =>
      cases hy with
      | infinite =>
          simp only [Binary64.mul]
          split
          · exact .inl rfl
          · exact .inr .infinite
      | finite => exact .inr (nonNegative_ofUnits _ _)

/-- The number is finite, is not negative and has at most so many units. -/
inductive AtMost (bound : Nat) : Binary64 → Prop
  | intro {units : Nat} {representable : Representable units} (le : units ≤ bound) :
      AtMost bound (.finite false units representable)

/-- What is below a bound is finite. -/
theorem NonNegative.finite_of_lt {x y : Binary64} (hx : NonNegative x) (hlt : x.lt y)
    {bound : Nat} (hy : AtMost bound y) : ∃ units representable,
      x = .finite false units representable ∧ units < bound := by
  cases hy with
  | intro hle =>
      cases hx with
      | infinite => cases hlt
      | @finite units representable =>
          refine ⟨units, representable, rfl, ?_⟩
          simp only [Binary64.lt, signed, Bool.false_eq_true, if_false, decide_eq_true_eq] at hlt
          omega

theorem AtMost.nonNegative {x : Binary64} {bound : Nat} (h : AtMost bound x) : NonNegative x := by
  cases h
  exact .finite

/-- What is rounded stops at a power of two. -/
theorem atMost_ofUnits {n d t : Nat} (ht : t ≤ topShift)
    (h : 2 * n < (2 ^ 53 + 1) * (d * 2 ^ t)) : AtMost (2 ^ (52 + t)) (ofUnits false n d) := by
  have hnearest := nearest_le h
  have hlimit : 2 ^ (52 + t) < limit := by
    rw [limit, ← Nat.pow_add]
    exact Nat.pow_lt_pow_right (by decide) (by omega)
  rw [ofUnits, dif_pos (Nat.lt_of_le_of_lt hnearest hlimit)]
  exact .intro hnearest

/-- A natural number stops at a power of two. -/
theorem atMost_ofNat {n m t : Nat} (ht : t ≤ topShift) (hm : m + unitScale = 52 + t)
    (h : n < 2 ^ m) : AtMost (2 ^ (52 + t)) (Binary64.ofNat n) := by
  have hunits : n * one < 2 ^ 52 * 2 ^ t := by
    rw [← Nat.pow_add, ← hm, Nat.pow_add]
    exact Nat.mul_lt_mul_of_pos_right h (Nat.two_pow_pos _)
  unfold Binary64.ofNat ofRatio
  apply atMost_ofUnits ht
  rw [Nat.one_mul]
  omega

/-- A sum stops at a power of two. -/
theorem AtMost.add {x y : Binary64} {k l t : Nat} (hx : AtMost k x) (hy : AtMost l y)
    (ht : t ≤ topShift) (h : 2 * (k + l) < (2 ^ 53 + 1) * 2 ^ t) :
    AtMost (2 ^ (52 + t)) (x.add y) := by
  rcases hx with @⟨k', hrepresentable, hk⟩
  rcases hy with @⟨l', hrepresentable', hl⟩
  simp only [Binary64.add, signed, Bool.false_eq_true, if_false]
  split
  · exact .intro (Nat.zero_le _)
  · have hsign : decide ((k' : Int) + l' < 0) = false := by
      rw [decide_eq_false_iff_not]
      omega
    rw [hsign, show ((k' : Int) + l').natAbs = k' + l' by omega]
    apply atMost_ofUnits ht
    rw [Nat.one_mul]
    omega

/-- A quotient stops at a power of two. -/
theorem AtMost.divNat {x : Binary64} {k d t : Nat} (hx : AtMost k x) (ht : t ≤ topShift)
    (h : 2 * k < (2 ^ 53 + 1) * (d * 2 ^ t)) : AtMost (2 ^ (52 + t)) (x.divNat d) := by
  rcases hx with @⟨k', hrepresentable, hk⟩
  apply atMost_ofUnits ht
  omega

end Binary64

namespace Duration

open Binary64

/-- A duration has no more seconds than durations can have. -/
theorem atMost_toSeconds (d : Duration) : AtMost tooManyUnits d.toSeconds := by
  -- The last bits of all bounds are told from that of a number below two.
  obtain ⟨t, ht⟩ : ∃ t, unitScale = 51 + t := ⟨1023, rfl⟩
  have htop : t + 63 ≤ topShift := by
    unfold unitScale at ht
    unfold topShift
    omega
  have hpos : 0 < 2 ^ t := Nat.two_pow_pos t
  have hone : one = 2 ^ 51 * 2 ^ t := by rw [one, ht, Nat.pow_add]
  have hwhole : AtMost (2 ^ (52 + (t + 63))) (Binary64.ofNat (d.nanos / nanosPerSecond)) := by
    apply atMost_ofNat htop (m := 64) (by omega)
    exact (Nat.div_lt_iff_lt_mul (by decide)).2 d.bounded
  have hrest : AtMost (2 ^ (52 + (t + 29))) (Binary64.ofNat (d.nanos % nanosPerSecond)) := by
    apply atMost_ofNat (by omega) (m := 30) (by omega)
    exact (Nat.mod_lt _ (by decide)).trans (by decide)
  have hparts : AtMost (2 ^ (52 + t))
      ((Binary64.ofNat (d.nanos % nanosPerSecond)).divNat nanosPerSecond) := by
    apply hrest.divNat (by omega)
    rw [Nat.pow_add, Nat.pow_add, nanosPerSecond]
    omega
  have hsum : AtMost (2 ^ (52 + (t + 63))) d.toSeconds := by
    apply hwhole.add hparts htop
    rw [Nat.pow_add, Nat.pow_add, Nat.pow_add]
    omega
  have hbound : tooManyUnits = 2 ^ (52 + (t + 63)) := by
    rw [tooManyUnits, hone, Nat.pow_add, Nat.pow_add]
    omega
  rwa [hbound]

/-- A number of seconds that is not negative and is too few for an error is a duration. -/
theorem exists_ofSeconds {k : Nat} {representable : Representable k} (h : k < tooManyUnits) :
    ∃ d, ofSeconds? (.finite false k representable) = .ok d :=
  ⟨_, by rw [ofSeconds?, Bool.false_and, if_neg Bool.false_ne_true, if_pos h]⟩

end Duration

end Redelivery
