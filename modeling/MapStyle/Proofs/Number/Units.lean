import MapStyle.Proofs.Number.Representable

/-!
# Units and errors

A representable number is a whole number of units, which are not too large if
the number is not (`Representable.of_abs_le`) and not too small if it is large
(`Representable.of_lt_abs`). Rounding is off by half a unit at most
(`IsNearest.error_le`), so that it is off by one part in `2 ^ 53` unless the
number is one of the smallest (`IsNearest.relative_error_le`).
-/

namespace MapStyle.Number

variable {v q : ℚ} {n : ℤ}

/-- A number that is not too large is a number of units that are not too
large. -/
theorem Representable.of_abs_le (h : Representable q) (hn : -1074 ≤ n)
    (hq : |q| ≤ 2 ^ 53 * 2 ^ n) :
    ∃ k e : ℤ, |k| ≤ 2 ^ 53 ∧ -1074 ≤ e ∧ e ≤ n ∧ q = k * 2 ^ e := by
  obtain ⟨k, e, hk, he, rfl⟩ := h
  rcases le_or_gt e n with hen | hne
  · exact ⟨k, e, hk, he, hen, rfl⟩
  · obtain ⟨j, rfl⟩ := Int.le.dest hne.le
    have hunits : (k : ℚ) * 2 ^ (n + j : ℤ) =
        ((k * 2 ^ j : ℤ) : ℚ) * 2 ^ n := by
      rw [two_zpow_add, zpow_natCast]
      push_cast
      ring
    refine ⟨k * 2 ^ j, n, ?_, hn, le_rfl, hunits⟩
    rw [hunits, abs_mul, abs_of_pos (two_zpow_pos n),
      mul_le_mul_iff_of_pos_right (two_zpow_pos n)] at hq
    exact_mod_cast hq

/-- A number that is large is a number of units that are large. -/
theorem Representable.of_lt_abs (h : Representable q)
    (hq : 2 ^ 53 * 2 ^ n < |q|) : ∃ k : ℤ, q = k * 2 ^ (n + 1) := by
  obtain ⟨k, e, hk, he, rfl⟩ := h
  have hlarge : n < e := by
    by_contra hen
    have hk' : |(k : ℚ)| ≤ 2 ^ 53 := by exact_mod_cast hk
    rw [abs_mul, abs_of_pos (two_zpow_pos e)] at hq
    exact absurd (mul_le_mul hk' (two_zpow_le (not_lt.1 hen))
      (two_zpow_pos e).le (by norm_num)) hq.not_ge
  obtain ⟨j, rfl⟩ := Int.le.dest (Int.add_one_le_iff.2 hlarge)
  refine ⟨k * 2 ^ j, ?_⟩
  rw [two_zpow_add, zpow_natCast]
  push_cast
  ring

/-- Taking away a number of units keeps a number that does not get larger by
it. -/
theorem representable_sub {k e c : ℤ} (hk : |k| ≤ 2 ^ 53) (he : -1074 ≤ e)
    (hle : |(k : ℚ) * 2 ^ e - c * 2 ^ e| ≤ |(k : ℚ) * 2 ^ e|) :
    Representable (k * 2 ^ e - c * 2 ^ e) := by
  refine ⟨k - c, e, ?_, he, by push_cast; ring⟩
  rw [← sub_mul, abs_mul, abs_mul,
    mul_le_mul_iff_of_pos_right (abs_pos.2 (two_zpow_pos e).ne')] at hle
  exact le_trans (by exact_mod_cast hle) hk

namespace IsNearest

/-- Rounding goes half a unit at most, if 53 bits have room for the number in
that unit. -/
theorem error_le (h : IsNearest v q) (hn : -1074 ≤ n)
    (hv : |v| ≤ 2 ^ 53 * 2 ^ n) : |q - v| ≤ 2 ^ n / 2 := by
  have hunit := two_zpow_pos n
  have hscaled : |v / 2 ^ n| ≤ 2 ^ 53 := by
    rwa [abs_div, abs_of_pos hunit, div_le_iff₀ hunit]
  have hhalf := abs_sub_round (v / 2 ^ n)
  have hsmall : |round (v / 2 ^ n)| ≤ 2 ^ 53 := by
    have hlt : (|round (v / 2 ^ n)| : ℚ) < 2 ^ 53 + 1 := by
      have := abs_sub_abs_le_abs_sub (round (v / 2 ^ n) : ℚ) (v / 2 ^ n)
      rw [abs_sub_comm] at this
      linarith
    have hlt : |round (v / 2 ^ n)| < 2 ^ 53 + 1 := by exact_mod_cast hlt
    omega
  calc |q - v| ≤ |round (v / 2 ^ n) * 2 ^ n - v| := h.2 _ ⟨_, n, hsmall, hn, rfl⟩
    _ = |v / 2 ^ n - round (v / 2 ^ n)| * 2 ^ n := by
        rw [abs_sub_comm, ← abs_of_pos hunit, ← abs_mul, abs_of_pos hunit,
          sub_mul, div_mul_cancel₀ _ hunit.ne']
    _ ≤ 1 / 2 * 2 ^ n := mul_le_mul_of_nonneg_right hhalf hunit.le
    _ = 2 ^ n / 2 := by ring

/-- Rounding is off by one part in `2 ^ 53`, or by half the smallest unit. -/
theorem relative_error_le (h : IsNearest v q) :
    |q - v| ≤ |v| * 2 ^ (-53 : ℤ) + 2 ^ (-1075 : ℤ) := by
  have hhalf (n : ℤ) : (2 : ℚ) ^ n / 2 = 2 ^ (n - 1) := by
    rw [zpow_sub_one₀ two_ne_zero, div_eq_mul_inv]
  have htwo (n : ℤ) : (2 : ℚ) ^ 53 * 2 ^ n = 2 ^ (53 + n) := by
    rw [two_zpow_add]
    norm_num
  have hunit := two_zpow_pos (-53)
  rcases le_or_gt |v| (2 ^ 53 * 2 ^ (-1074 : ℤ)) with hle | hlt
  · have herror := h.error_le le_rfl hle
    rw [hhalf] at herror
    exact herror.trans (le_add_of_nonneg_left
      (mul_nonneg (abs_nonneg v) hunit.le))
  · rw [htwo] at hlt
    have hpos : 0 < |v| := (two_zpow_pos _).trans hlt
    obtain ⟨n, hn⟩ : ∃ n, Int.log 2 |v| = n := ⟨_, rfl⟩
    have hlow : (2 : ℚ) ^ n ≤ |v| := by
      exact_mod_cast hn ▸ Int.zpow_log_le_self one_lt_two hpos
    have hhigh : |v| < 2 ^ (n + 1) := by
      exact_mod_cast hn ▸ Int.lt_zpow_succ_log_self one_lt_two |v|
    have hmin : (53 + -1074 : ℤ) < n + 1 :=
      (zpow_lt_zpow_iff_right₀ one_lt_two).1 (hlt.trans hhigh)
    have herror := h.error_le (n := n - 52) (by omega) (by
      rw [htwo]
      exact hhigh.le.trans (two_zpow_le (by omega)))
    calc |q - v| ≤ 2 ^ (n - 52 - 1) := by rwa [hhalf] at herror
      _ = 2 ^ n * 2 ^ (-53 : ℤ) := by
          rw [← two_zpow_add]
          congr 1
          ring
      _ ≤ |v| * 2 ^ (-53 : ℤ) := mul_le_mul_of_nonneg_right hlow hunit.le
      _ ≤ _ := le_add_of_nonneg_right (two_zpow_pos _).le

end IsNearest

end MapStyle.Number
