import Mathlib

/-!
# The numbers that doubles stand for

A finite double stands for a rational number that has a mantissa of 53 bits and
an exponent that is not too small. Arithmetic on doubles gives the number that
is nearest to the exact result among these. `IsNearest` says so, and what
follows is what all claims about rounding rest on: the result does not pass a
number of this kind that the exact result does not pass
(`IsNearest.le_of_le`), and what is computed has half a unit of error at most,
which makes it nearest (`isNearest_of_half`).

The range of exponents is not bounded above here. Numbers that are too large
for a double are dealt with where results are packed.
-/

namespace MapStyle.Number

/-- The numbers with a mantissa of 53 bits. A mantissa of `2 ^ 53` is one of
`2 ^ 52` with the next exponent. -/
def Representable (q : ℚ) : Prop :=
  ∃ k e : ℤ, |k| ≤ 2 ^ 53 ∧ -1074 ≤ e ∧ q = k * 2 ^ e

/-- Whether `q` is as near to `v` as any representable number. -/
def IsNearest (v q : ℚ) : Prop :=
  Representable q ∧ ∀ z, Representable z → |q - v| ≤ |z - v|

variable {v q z : ℚ}

theorem two_zpow_pos (e : ℤ) : (0 : ℚ) < 2 ^ e :=
  zpow_pos (by norm_num) e

theorem two_zpow_add (e f : ℤ) : (2 : ℚ) ^ (e + f) = 2 ^ e * 2 ^ f :=
  zpow_add₀ (by norm_num) e f

theorem two_zpow_le {e f : ℤ} (h : e ≤ f) : (2 : ℚ) ^ e ≤ 2 ^ f :=
  zpow_le_zpow_right₀ (by norm_num) h

theorem two_zpow_lt {e f : ℤ} (h : e < f) : (2 : ℚ) ^ e < 2 ^ f :=
  zpow_lt_zpow_right₀ (by norm_num) h

theorem Representable.neg (h : Representable q) : Representable (-q) := by
  obtain ⟨k, e, hk, he, rfl⟩ := h
  refine ⟨-k, e, ?_, he, ?_⟩
  · rwa [abs_neg]
  · push_cast
    rw [neg_mul]

theorem Representable.abs (h : Representable q) : Representable |q| := by
  rcases abs_choice q with hq | hq <;> rw [hq]
  · exact h
  · exact h.neg

theorem representable_intCast {n : ℤ} (h : |n| ≤ 2 ^ 53) :
    Representable n :=
  ⟨n, 0, h, by decide, by rw [zpow_zero, mul_one]⟩

theorem representable_two_zpow {e : ℤ} (he : -1074 ≤ e) :
    Representable (2 ^ e) :=
  ⟨1, e, by norm_num, he, by rw [Int.cast_one, one_mul]⟩

/-- A change of the exponent. -/
theorem Representable.mul_two_pow (h : Representable q) (n : ℕ) :
    Representable (q * 2 ^ n) := by
  obtain ⟨k, e, hk, he, rfl⟩ := h
  refine ⟨k, e + n, hk, by omega, ?_⟩
  rw [two_zpow_add, zpow_natCast, mul_assoc]

theorem isNearest_self (h : Representable v) : IsNearest v v :=
  ⟨h, fun z _ => by rw [sub_self, abs_zero]; exact abs_nonneg _⟩

namespace IsNearest

theorem neg (h : IsNearest v q) : IsNearest (-v) (-q) := by
  refine ⟨h.1.neg, fun z hz => ?_⟩
  calc |-q - -v| = |q - v| := by rw [← abs_neg]; ring_nf
    _ ≤ |-z - v| := h.2 (-z) hz.neg
    _ = |z - -v| := by rw [← abs_neg]; ring_nf

/-- Rounding up does not pass a representable number. -/
theorem le_of_le (h : IsNearest v q) (hz : Representable z) (hle : v ≤ z) :
    q ≤ z := by
  by_contra hlt
  have hlt := lt_of_not_ge hlt
  have hnearest := h.2 z hz
  rw [abs_of_nonneg (by linarith), abs_of_nonneg (by linarith)] at hnearest
  linarith

/-- Rounding down does not pass a representable number. -/
theorem ge_of_ge (h : IsNearest v q) (hz : Representable z) (hle : z ≤ v) :
    z ≤ q := by
  have hneg := h.neg.le_of_le hz.neg (neg_le_neg hle)
  exact neg_le_neg_iff.1 hneg

theorem abs_le_of_abs_le (h : IsNearest v q) (hz : Representable z)
    (hle : |v| ≤ z) : |q| ≤ z := by
  obtain ⟨hlow, hhigh⟩ := abs_le.1 hle
  exact abs_le.2 ⟨h.ge_of_ge hz.neg hlow, h.le_of_le hz hhigh⟩

/-- A representable number is rounded to itself. -/
theorem eq_self (h : IsNearest v q) (hv : Representable v) : q = v :=
  le_antisymm (h.le_of_le hv le_rfl) (h.ge_of_ge hv le_rfl)

end IsNearest

/-- An integer at most half away from a number is as near as any. -/
theorem nearest_integer {x : ℚ} {r : ℤ} (h : |r - x| ≤ 1 / 2) (n : ℤ) :
    |r - x| ≤ |n - x| := by
  by_cases hn : n = r
  · rw [hn]
  · have hdistance : (1 : ℚ) ≤ |(n : ℚ) - r| := by
      have hone : (1 : ℤ) ≤ |n - r| := Int.one_le_abs (sub_ne_zero.2 hn)
      exact_mod_cast hone
    have htriangle := abs_sub_le (n : ℚ) x r
    rw [abs_sub_comm x r] at htriangle
    linarith

/-- A whole number of units at most half a unit away is nearest, provided that
the unit is the smallest one or that 53 bits have room for no smaller one. -/
theorem isNearest_of_half {x : ℚ} {r t : ℤ} (hhalf : |r - x| ≤ 1 / 2)
    (hr : |r| ≤ 2 ^ 53) (ht : -1074 ≤ t) (hx : t = -1074 ∨ 2 ^ 52 ≤ |x|) :
    IsNearest (x * 2 ^ t) (r * 2 ^ t) := by
  have hunit := two_zpow_pos t
  have hscale (y : ℚ) : |y * 2 ^ t - x * 2 ^ t| = |y - x| * 2 ^ t := by
    rw [← sub_mul, abs_mul, abs_of_pos hunit]
  refine ⟨⟨r, t, hr, ht, rfl⟩, ?_⟩
  rintro _ ⟨k, f, hk, hf, rfl⟩
  rcases le_or_gt t f with htf | hft
  · -- A number of larger units is a number of these units as well.
    obtain ⟨j, hj⟩ := Int.le.dest htf
    have hwhole : (k : ℚ) * 2 ^ f = ((k * 2 ^ j : ℤ) : ℚ) * 2 ^ t := by
      rw [← hj, two_zpow_add, zpow_natCast]
      push_cast
      ring
    rw [hwhole, hscale, hscale]
    exact mul_le_mul_of_nonneg_right (nearest_integer hhalf _) hunit.le
  · -- A number of smaller units is too small to come near.
    have hlarge : 2 ^ 52 ≤ |x| := hx.resolve_left (by omega)
    have hsmall : |(k : ℚ) * 2 ^ f| ≤ 2 ^ 52 * 2 ^ t := by
      rw [abs_mul, abs_of_pos (two_zpow_pos f)]
      have hk : |(k : ℚ)| ≤ 2 ^ 53 := by exact_mod_cast hk
      calc |(k : ℚ)| * 2 ^ f ≤ 2 ^ 53 * 2 ^ (t - 1) :=
            mul_le_mul hk (two_zpow_le (by omega)) (two_zpow_pos f).le
              (by norm_num)
        _ = 2 ^ 52 * 2 ^ t := by
            rw [zpow_sub₀ (by norm_num : (2 : ℚ) ≠ 0)]
            ring
    have hfar : |(r : ℚ) - x| ≤ |x| - 2 ^ 52 := by
      rcases abs_cases x with ⟨habs, hsign⟩ | ⟨habs, hsign⟩
      · refine (nearest_integer hhalf (2 ^ 52)).trans_eq ?_
        push_cast
        rw [abs_sub_comm, abs_of_nonneg (by linarith), habs]
        norm_num
      · refine (nearest_integer hhalf (-2 ^ 52)).trans_eq ?_
        push_cast
        rw [abs_of_nonneg (by linarith), habs]
        ring
    calc |(r : ℚ) * 2 ^ t - x * 2 ^ t| = |r - x| * 2 ^ t := hscale r
      _ ≤ (|x| - 2 ^ 52) * 2 ^ t := mul_le_mul_of_nonneg_right hfar hunit.le
      _ = |x * 2 ^ t| - 2 ^ 52 * 2 ^ t := by
          rw [abs_mul, abs_of_pos hunit, sub_mul]
      _ ≤ |x * 2 ^ t| - |(k : ℚ) * 2 ^ f| := sub_le_sub_left hsmall _
      _ ≤ |(k : ℚ) * 2 ^ f - x * 2 ^ t| := by
          rw [abs_sub_comm]
          exact abs_sub_abs_le_abs_sub _ _

end MapStyle.Number
