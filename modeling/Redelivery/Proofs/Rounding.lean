import Mathlib.Tactic.Ring
import Redelivery.Proofs.Binary64

/-!
# Rounding keeps order

A magnitude with at most 53 significant bits is its own rounding, so what lies on one side
of it is rounded to that side.  Any other quotient is rounded by at most half of what its
last bit is worth, and not past a magnitude that is nearer than that.

Main results:

* Theorem `roundDiv_mono`: of two numbers, the larger one is not rounded to less.
* Theorem `Binary64.le_nearest_of_le`, Theorem `Binary64.nearest_le_of_le`: rounding does
  not go past a magnitude.
* Theorem `Binary64.le_nearest_of_near`, Theorem `Binary64.nearest_add_le`: nor does it from
  a little less, or a little more.
* Theorem `Binary64.le_nearest_add`, Theorem `Binary64.nearest_mul_le`: how far it goes.
-/

namespace Redelivery

/-! ## To whole numbers -/

section

variable {n d q : Nat}

/-- A quotient is rounded down by at most a half. -/
theorem le_roundDiv_add (hd : 0 < d) : 2 * n ≤ (2 * roundDiv n d + 1) * d := by
  have hdivision := Nat.div_add_mod n d
  have hmod := Nat.mod_lt n hd
  unfold roundDiv
  split
  case isTrue hlow => nlinarith
  case isFalse =>
    split
    case isTrue hhigh => nlinarith
    case isFalse => nlinarith [Nat.zero_le (n / d % 2 * d)]

/-- A quotient is rounded up by at most a half. -/
theorem roundDiv_mul_le : 2 * (roundDiv n d * d) ≤ 2 * n + d := by
  have hdivision := Nat.div_add_mod n d
  unfold roundDiv
  split
  case isTrue => nlinarith [Nat.zero_le (n % d)]
  case isFalse hlow =>
    split
    case isTrue hhigh => nlinarith
    case isFalse hhigh =>
      have hparity : n / d % 2 * d ≤ 1 * d := Nat.mul_le_mul_right d (by omega)
      nlinarith

/-- A quotient that is not past `q` is not rounded past it. -/
theorem roundDiv_le_of_le (hd : 0 < d) (h : n ≤ q * d) : roundDiv n d ≤ q := by
  apply roundDiv_le_of_lt
  nlinarith

/-- A quotient that is nearer to `q` than to the number before is not rounded below `q`. -/
theorem le_roundDiv_of_lt (hd : 0 < d) (h : 2 * (q * d) < 2 * n + d) : q ≤ roundDiv n d := by
  have hround := le_roundDiv_add (n := n) hd
  have hlt : q * d < (roundDiv n d + 1) * d := by nlinarith
  exact Nat.le_of_lt_succ (Nat.lt_of_mul_lt_mul_right hlt)

/-- Of two numbers, the larger one is not rounded to less. -/
theorem roundDiv_mono {n' : Nat} (h : n ≤ n') (d : Nat) : roundDiv n d ≤ roundDiv n' d := by
  have hdivision := Nat.div_add_mod n d
  have hdivision' := Nat.div_add_mod n' d
  rcases Nat.lt_or_eq_of_le (Nat.div_le_div_right (c := d) h) with hlt | heq
  · exact (roundDiv_le n d).trans (hlt.trans_le (le_roundDiv n' d))
  · -- The two have the same whole part, so their remainders decide.
    rw [← heq] at hdivision'
    have hmod : n % d ≤ n' % d := by omega
    unfold roundDiv
    rw [← heq]
    split
    case isTrue =>
      split
      · exact Nat.le_refl _
      · split <;> omega
    case isFalse hlow =>
      have hlow' : ¬2 * (n' % d) < d := by omega
      rw [if_neg hlow']
      split <;> split <;> omega

end

namespace Binary64

/-! ## To magnitudes -/

section

variable {n d k t : Nat}

/-- A power of two has one significant bit. -/
theorem two_pow_dvd_two_pow (j : Nat) : 2 ^ ((2 ^ j).log2 - 52) ∣ 2 ^ j := by
  rw [Nat.log2_two_pow]
  exact Nat.pow_dvd_pow 2 (Nat.sub_le j 52)

/-- A quotient below a power of two gives up no more bits than those before the power. -/
theorem slack_le (hd : 0 < d) (h : n < 2 ^ (53 + t) * d) : slack n d ≤ t := by
  have hquotient : n / d < 2 ^ (53 + t) := (Nat.div_lt_iff_lt_mul hd).2 h
  unfold slack
  by_cases hzero : n / d = 0
  · simp [hzero]
  · have hlog := (Nat.log2_lt hzero).2 hquotient
    omega

/-- A quotient that has reached a power of two gives up as many bits as the power. -/
theorem le_slack (hd : 0 < d) (h : 2 ^ (52 + t) * d ≤ n) : t ≤ slack n d := by
  have hquotient : 2 ^ (52 + t) ≤ n / d := (Nat.le_div_iff_mul_le hd).2 h
  have hne : n / d ≠ 0 := Nat.ne_of_gt ((Nat.two_pow_pos _).trans_le hquotient)
  have hlog := (Nat.le_log2 hne).2 hquotient
  unfold slack
  omega

/-- Rounding goes down by at most half of what the last bit is worth. -/
theorem le_nearest_add (hd : 0 < d) : 2 * n ≤ (2 * nearest n d + 2 ^ slack n d) * d := by
  have hround := le_roundDiv_add (n := n) (Nat.mul_pos hd (Nat.two_pow_pos (slack n d)))
  unfold nearest
  linarith

/-- Rounding goes up by at most half of what the last bit is worth. -/
theorem nearest_mul_le : 2 * (nearest n d * d) ≤ 2 * n + 2 ^ slack n d * d := by
  have hround := roundDiv_mul_le (n := n) (d := d * 2 ^ slack n d)
  unfold nearest
  linarith

/-- A quotient of at most `k` gives up no more bits than `k` has to. -/
theorem slack_le_of_le (hd : 0 < d) (h : n ≤ k * d) : slack n d ≤ k.log2 - 52 := by
  apply slack_le hd
  have hk : k < 2 ^ (53 + (k.log2 - 52)) :=
    Nat.lt_log2_self.trans_le (Nat.pow_le_pow_right (by decide) (by omega))
  exact h.trans_lt (Nat.mul_lt_mul_of_pos_right hk hd)

/-- A quotient that is not past a magnitude is not rounded past it. -/
theorem nearest_le_of_le (hk : 2 ^ (k.log2 - 52) ∣ k) (hd : 0 < d) (h : n ≤ k * d) :
    nearest n d ≤ k := by
  obtain ⟨q, hq⟩ := (Nat.pow_dvd_pow 2 (slack_le_of_le hd h)).trans hk
  have hround : roundDiv n (d * 2 ^ slack n d) ≤ q := by
    apply roundDiv_le_of_le (Nat.mul_pos hd (Nat.two_pow_pos _))
    calc n ≤ k * d := h
      _ = q * (d * 2 ^ slack n d) := by rw [hq]; ring
  calc nearest n d ≤ q * 2 ^ slack n d := Nat.mul_le_mul_right _ hround
    _ = k := by rw [hq, Nat.mul_comm]

/-- A quotient that has reached a magnitude is not rounded below it. -/
theorem le_nearest_of_le (hk : 2 ^ (k.log2 - 52) ∣ k) (hd : 0 < d) (h : k * d ≤ n) :
    k ≤ nearest n d := by
  have hfloor : k ≤ n / d := (Nat.le_div_iff_mul_le hd).2 h
  unfold nearest
  by_cases hlow : k < 2 ^ (52 + slack n d)
  · -- The quotient has reached the power of two before its last bit, or gives up nothing.
    rcases Nat.eq_zero_or_pos (slack n d) with hzero | hpos
    · rw [hzero, Nat.pow_zero, Nat.mul_one, Nat.mul_one]
      exact hfloor.trans (le_roundDiv n d)
    · have hne : n / d ≠ 0 := by
        intro hne
        simp [slack, hne] at hpos
      have hpower : 2 ^ 52 * (d * 2 ^ slack n d) ≤ n := by
        have hself := Nat.log2_self_le hne
        rw [show (n / d).log2 = 52 + slack n d by unfold slack at hpos ⊢; omega, Nat.pow_add,
          Nat.le_div_iff_mul_le hd] at hself
        linarith
      have hround : 2 ^ 52 ≤ roundDiv n (d * 2 ^ slack n d) :=
        ((Nat.le_div_iff_mul_le (Nat.mul_pos hd (Nat.two_pow_pos _))).2 hpower).trans
          (le_roundDiv _ _)
      rw [Nat.pow_add] at hlow
      exact hlow.le.trans (Nat.mul_le_mul_right _ hround)
  · -- The magnitude is a multiple of what the last bit is worth.
    have hne : k ≠ 0 := Nat.ne_of_gt ((Nat.two_pow_pos _).trans_le (Nat.not_lt.1 hlow))
    have hlog : 52 + slack n d ≤ k.log2 := (Nat.le_log2 hne).2 (Nat.not_lt.1 hlow)
    obtain ⟨q, hq⟩ := (Nat.pow_dvd_pow 2 (Nat.le_sub_of_add_le' hlog)).trans hk
    have hround : q ≤ n / (d * 2 ^ slack n d) := by
      rw [Nat.le_div_iff_mul_le (Nat.mul_pos hd (Nat.two_pow_pos _))]
      calc q * (d * 2 ^ slack n d) = k * d := by rw [hq]; ring
        _ ≤ n := h
    calc k = q * 2 ^ slack n d := by rw [hq, Nat.mul_comm]
      _ ≤ _ := Nat.mul_le_mul_right _ (hround.trans (le_roundDiv _ _))

/-- A magnitude is its own rounding. -/
theorem nearest_self (hk : 2 ^ (k.log2 - 52) ∣ k) : nearest k 1 = k :=
  Nat.le_antisymm (nearest_le_of_le hk Nat.one_pos (Nat.mul_one k).ge)
    (le_nearest_of_le hk Nat.one_pos (Nat.mul_one k).le)

/-- What is rounded past a magnitude is past it. -/
theorem lt_of_lt_nearest (hk : 2 ^ (k.log2 - 52) ∣ k) (hd : 0 < d) (h : k < nearest n d) :
    k * d < n := by
  rw [← Nat.not_le] at h ⊢
  exact fun hle => h (nearest_le_of_le hk hd hle)

/-- A magnitude that is no power of two has one before it with as many bits. -/
theorem two_pow_add_le (hk : 2 ^ (k.log2 - 52) ∣ k) (hpower : 2 ^ k.log2 < k) :
    2 ^ k.log2 + 2 ^ (k.log2 - 52) ≤ k := by
  obtain ⟨q, hq⟩ := hk
  obtain ⟨p, hp⟩ : 2 ^ (k.log2 - 52) ∣ 2 ^ k.log2 := Nat.pow_dvd_pow 2 (Nat.sub_le _ _)
  have hlt : p < q := by
    apply Nat.lt_of_mul_lt_mul_left (a := 2 ^ (k.log2 - 52))
    rwa [← hp, ← hq]
  calc 2 ^ k.log2 + 2 ^ (k.log2 - 52) = 2 ^ (k.log2 - 52) * (p + 1) := by
        rw [Nat.mul_succ, ← hp]
    _ ≤ 2 ^ (k.log2 - 52) * q := Nat.mul_le_mul_left _ hlt
    _ = k := hq.symm

/-- A quotient that is nearer to a magnitude than to the one before is not rounded below it;
before a power of two that one is twice as near. -/
theorem le_nearest_of_near (hk : 2 ^ (k.log2 - 52) ∣ k) (hpower : 2 ^ k.log2 < k) (hd : 0 < d)
    (h : 2 * (k * d) < 2 * n + 2 ^ (k.log2 - 52) * d) : k ≤ nearest n d := by
  by_cases hreached : k * d ≤ n
  · exact le_nearest_of_le hk hd hreached
  · -- The quotient has just the bits of the magnitude.
    have hslack : slack n d = k.log2 - 52 := by
      refine Nat.le_antisymm (slack_le_of_le hd (Nat.le_of_not_le hreached)) ?_
      rcases Nat.le_total k.log2 52 with hfew | hmany
      · rw [Nat.sub_eq_zero_of_le hfew]
        exact Nat.zero_le _
      · apply le_slack hd
        rw [Nat.add_sub_cancel' hmany]
        nlinarith [two_pow_add_le hk hpower]
    have hround : k / 2 ^ slack n d ≤ roundDiv n (d * 2 ^ slack n d) := by
      apply le_roundDiv_of_lt (Nat.mul_pos hd (Nat.two_pow_pos _))
      rw [← hslack] at h hk
      calc 2 * (k / 2 ^ slack n d * (d * 2 ^ slack n d))
          = 2 * (k / 2 ^ slack n d * 2 ^ slack n d * d) := by ring
        _ = 2 * (k * d) := by rw [Nat.div_mul_cancel hk]
        _ < 2 * n + d * 2 ^ slack n d := by linarith
    calc k = k / 2 ^ slack n d * 2 ^ slack n d := by rw [Nat.div_mul_cancel (hslack ▸ hk)]
      _ ≤ nearest n d := Nat.mul_le_mul_right _ hround

/-- A magnitude and less than half of what its last bit is worth is rounded to no more than the
magnitude. -/
theorem nearest_add_le {more : Nat} (hk : 2 ^ (k.log2 - 52) ∣ k)
    (h : 2 * more < 2 ^ (k.log2 - 52)) : nearest (k + more) 1 ≤ k := by
  rcases Nat.eq_zero_or_pos (k.log2 - 52) with hzero | hpos
  · rw [hzero, Nat.pow_zero] at h
    rw [show more = 0 by omega, Nat.add_zero, nearest_self hk]
  · have hne : k ≠ 0 := by
      rintro rfl
      simp [Nat.log2_zero] at hpos
    obtain ⟨q, hq⟩ := hk
    have hlog : 52 + (k.log2 - 52) = k.log2 := by omega
    have hslack : slack (k + more) 1 = k.log2 - 52 := by
      refine Nat.le_antisymm (slack_le Nat.one_pos ?_) (le_slack Nat.one_pos ?_)
      · -- The next power of two is a multiple of the last bit, and so are all numbers before.
        obtain ⟨p, hp⟩ : 2 ^ (k.log2 - 52) ∣ 2 ^ (53 + (k.log2 - 52)) :=
          Nat.pow_dvd_pow 2 (Nat.le_add_left _ _)
        have hlt : q < p := by
          apply Nat.lt_of_mul_lt_mul_left (a := 2 ^ (k.log2 - 52))
          rw [← hp, ← hq, show 53 + (k.log2 - 52) = k.log2 + 1 by omega]
          exact Nat.lt_log2_self
        have hnext : 2 ^ (k.log2 - 52) * (q + 1) ≤ 2 ^ (k.log2 - 52) * p :=
          Nat.mul_le_mul_left _ hlt
        rw [Nat.mul_succ, ← hp, ← hq] at hnext
        omega
      · rw [hlog, Nat.mul_one]
        exact (Nat.log2_self_le hne).trans (Nat.le_add_right _ _)
    have hround : roundDiv (k + more) (1 * 2 ^ slack (k + more) 1) ≤ q := by
      apply roundDiv_le_of_lt
      rw [hslack, Nat.one_mul]
      nlinarith
    calc nearest (k + more) 1 ≤ q * 2 ^ slack (k + more) 1 := Nat.mul_le_mul_right _ hround
      _ = k := by rw [hslack, Nat.mul_comm, ← hq]

/-- A quotient that a power of two bounds is rounded to a finite number. -/
theorem exists_ofUnits {j : Nat} (hj : 2 ^ j < limit) (hd : 0 < d) (h : n ≤ 2 ^ j * d) :
    ∃ representable, ofUnits false n d = .finite false (nearest n d) representable := by
  have hnearest := (nearest_le_of_le (two_pow_dvd_two_pow j) hd h).trans_lt hj
  exact ⟨⟨nearest_dvd n d, hnearest⟩, by rw [ofUnits, dif_pos hnearest]⟩

end

end Binary64

end Redelivery
