import MapStyle.Proofs.Number.Representable

/-!
# Rounding in the logical model of doubles

The logical model computes exactly, drops bits, and keeps of the dropped bits
the last one and whether any before it was set. `Approximates` says which
numbers a mantissa with these two bits stands for. Dropping one more bit halves
the number (`Approximates.shiftRightOne`), so that the mantissa is in the end
rounded to a whole number that is at most one half away (`Approximates.half`).

Whether this is the nearest double depends on the unit. It must not be so large
that a double of smaller unit comes nearer, which is what `roundWithAccuracy`
assumes: it drops bits but does not fill them in (`roundWithAccuracy_spec`).
-/

namespace MapStyle.Number

open Float.Model Float.Model.UnpackedFloat

/-! ## Residual bits -/

/-- Whether a mantissa with residual bits stands for a number, in units of the
mantissa: what is left after the round bit is less than a half, and is nothing
unless the sticky bit is set. -/
def Approximates (em : ExtendedMantissa) (x : ℚ) : Prop :=
  ∃ rest : ℚ, 0 ≤ rest ∧ rest < 1 / 2 ∧ (em.stickyBit = false ↔ rest = 0) ∧
    x = em.mantissa + em.roundBit.toNat / 2 + rest

variable {em : ExtendedMantissa} {x : ℚ}

theorem approximates_exact (m : ℕ) :
    Approximates (.ofMantissaAndAccuracy m .exact) m :=
  ⟨0, le_rfl, by norm_num, iff_of_true rfl rfl, by
    simp [ExtendedMantissa.ofMantissaAndAccuracy]⟩

/-- The quotient of two natural numbers, with what the remainder says. -/
theorem approximates_div (a : ℕ) {b : ℕ} (hb : 0 < b) :
    Approximates (.ofMantissaAndAccuracy (a / b)
      (accuracyOfFraction (a % b) b)) (a / b) := by
  have hpos : (0 : ℚ) < b := by exact_mod_cast hb
  have hsplit : (a : ℚ) / b = (a / b : ℕ) + (a % b : ℕ) / b := by
    rw [div_eq_iff hpos.ne', add_mul, div_mul_cancel₀ _ hpos.ne', mul_comm]
    exact_mod_cast (Nat.div_add_mod a b).symm
  have hlt : ((a % b : ℕ) : ℚ) < b := by exact_mod_cast Nat.mod_lt a hb
  rw [accuracyOfFraction, hsplit]
  generalize a / b = m, a % b = r at hlt ⊢
  have hr : (0 : ℚ) ≤ r := Nat.cast_nonneg r
  split
  · next hzero =>
      rw [hzero, Nat.cast_zero, zero_div, add_zero]
      exact approximates_exact m
  · next hzero =>
      have hfraction : (0 : ℚ) < r / b :=
        div_pos (by exact_mod_cast Nat.pos_of_ne_zero hzero) hpos
      have hone : (r : ℚ) / b < 1 := (div_lt_one₀ hpos).2 hlt
      rcases lt_trichotomy (2 * r) b with hcmp | hcmp | hcmp
      · have hhalf : (r : ℚ) / b < 1 / 2 := by
          rw [div_lt_div_iff₀ hpos two_pos, one_mul, mul_comm]
          exact_mod_cast hcmp
        rw [compare_lt_iff_lt.2 hcmp]
        refine ⟨r / b, hfraction.le, hhalf,
          iff_of_false Bool.noConfusion hfraction.ne', ?_⟩
        simp [ExtendedMantissa.ofMantissaAndAccuracy]
      · have hhalf : (r : ℚ) / b = 1 / 2 := by
          rw [div_eq_div_iff hpos.ne' two_ne_zero, one_mul, mul_comm]
          exact_mod_cast hcmp
        rw [compare_eq_iff_eq.2 hcmp, hhalf]
        refine ⟨0, le_rfl, by norm_num, iff_of_true rfl rfl, ?_⟩
        simp [ExtendedMantissa.ofMantissaAndAccuracy]
      · have hhalf : 1 / 2 < (r : ℚ) / b := by
          rw [div_lt_div_iff₀ two_pos hpos, one_mul, mul_comm]
          exact_mod_cast hcmp
        rw [compare_gt_iff_gt.2 hcmp]
        refine ⟨r / b - 1 / 2, by linarith, by linarith,
          iff_of_false Bool.noConfusion (by linarith), ?_⟩
        simp [ExtendedMantissa.ofMantissaAndAccuracy]

theorem mantissa_ofMantissaAndAccuracy (m : ℕ) (accuracy : Accuracy) :
    (ExtendedMantissa.ofMantissaAndAccuracy m accuracy).mantissa = m := by
  cases accuracy with
  | exact => rfl
  | inexact o => cases o <;> rfl

namespace Approximates

/-- The mantissa is the whole part. -/
theorem bounds (h : Approximates em x) :
    (em.mantissa : ℚ) ≤ x ∧ x < em.mantissa + 1 := by
  obtain ⟨rest, hlow, hhigh, -, rfl⟩ := h
  cases em.roundBit <;> simp <;> constructor <;> linarith

theorem shiftRightOne (h : Approximates em x) :
    Approximates em.shiftRightOne (x / 2) := by
  obtain ⟨m, round, sticky⟩ := em
  obtain ⟨rest, hlow, hhigh, hsticky, rfl⟩ := h
  have hround : (0 : ℚ) ≤ round.toNat ∧ (round.toNat : ℚ) ≤ 1 :=
    ⟨Nat.cast_nonneg _, by exact_mod_cast Bool.toNat_le round⟩
  have hbit : (m % 2 != 0).toNat = m % 2 := by
    rcases Nat.mod_two_eq_zero_or_one m with h | h <;> rw [h] <;> rfl
  have hsplit : (m : ℚ) = 2 * (m / 2 : ℕ) + (m % 2 : ℕ) := by
    exact_mod_cast (Nat.div_add_mod m 2).symm
  refine ⟨round.toNat / 4 + rest / 2, by linarith, by linarith, ?_, ?_⟩
  · -- Nothing is left exactly if both bits were clear.
    show (round || sticky) = false ↔ _
    rw [Bool.or_eq_false_iff, hsticky]
    cases round with
    | false => simp
    | true =>
        have hleft : (0 : ℚ) < (true.toNat : ℚ) / 4 + rest / 2 := by
          rw [Bool.toNat_true, Nat.cast_one]
          linarith
        exact iff_of_false (fun h => Bool.noConfusion h.1) hleft.ne'
  · show _ = ((m / 2 : ℕ) : ℚ) + (m % 2 != 0).toNat / 2 + _
    rw [hbit]
    linarith

theorem shiftRight (h : Approximates em x) (k : ℕ) :
    Approximates (em >>> k) (x / 2 ^ k) := by
  induction k with
  | zero =>
      rw [pow_zero, div_one]
      exact h
  | succ k ih =>
      rw [pow_succ, ← div_div]
      exact ih.shiftRightOne

/-- The rounded mantissa is at most half a unit away. -/
theorem half (h : Approximates em x) :
    |(em.roundedMantissa : ℚ) - x| ≤ 1 / 2 := by
  obtain ⟨m, round, sticky⟩ := em
  obtain ⟨rest, hlow, hhigh, hsticky, rfl⟩ := h
  have hparity : (0 : ℚ) ≤ (m % 2 : ℕ) ∧ ((m % 2 : ℕ) : ℚ) ≤ 1 :=
    ⟨Nat.cast_nonneg _,
      by exact_mod_cast Nat.lt_succ_iff.1 (Nat.mod_lt m two_pos)⟩
  rw [abs_le]
  cases round <;> cases sticky <;>
    simp only [ExtendedMantissa.roundedMantissa, ExtendedMantissa.accuracy,
      Accuracy.roundToNearestEven, Bool.toNat_false, Bool.toNat_true,
      Nat.cast_add, Nat.cast_one, Nat.cast_zero, true_iff] at hsticky ⊢ <;>
    constructor <;> linarith

end Approximates

/-! ## Shifting -/

theorem mantissa_shiftRight (em : ExtendedMantissa) (k : ℕ) :
    (em >>> k).mantissa = em.mantissa / 2 ^ k := by
  induction k with
  | zero => exact (Nat.div_one _).symm
  | succ k ih =>
      show (em >>> k).mantissa / 2 = _
      rw [ih, Nat.div_div_eq_div_mul, Nat.pow_succ]

theorem roundedMantissa_bounds (em : ExtendedMantissa) :
    em.mantissa ≤ em.roundedMantissa ∧
      em.roundedMantissa ≤ em.mantissa + 1 := by
  obtain ⟨m, round, sticky⟩ := em
  cases round <;> cases sticky <;>
    simp only [ExtendedMantissa.roundedMantissa, ExtendedMantissa.accuracy,
      Accuracy.roundToNearestEven] <;> omega

theorem target_eq (m : ℕ) (e : ℤ) :
    Format.binary64.targetExponent (totalExponent m e) =
      max (m.log2 + 1 + e - 53) (-1074) := rfl

/-- Bits are dropped up to the target exponent, if any are. -/
theorem shift_eq {m k : ℕ} {e : ℤ} (accuracy : Accuracy)
    (hk : (max (m.log2 + 1 + e - 53) (-1074) - e).toNat = k) :
    shiftToTargetExponent .binary64 m e accuracy =
      (ExtendedMantissa.ofMantissaAndAccuracy m accuracy >>> k, e + k) := by
  subst hk
  rfl

/-- What is rounded has at most 53 bits, or one more if rounding has carried.
Then it takes the next unit. -/
theorem shift_carry {r : ℕ} {e : ℤ} (hr : r ≤ 2 ^ 53) (he : -1074 ≤ e) :
    ∃ em : ExtendedMantissa, ∃ e',
      shiftToTargetExponent .binary64 r e .exact = (em, e') ∧
      ((r < 2 ^ 53 ∧ em.mantissa = r ∧ e' = e) ∨
        (r = 2 ^ 53 ∧ em.mantissa = 2 ^ 52 ∧ e' = e + 1)) := by
  rcases Nat.lt_or_eq_of_le hr with hlt | rfl
  · have hlog : r.log2 ≤ 52 := by
      rcases Nat.eq_zero_or_pos r with rfl | hpos
      · decide
      · have := (Nat.log2_lt (Nat.ne_of_gt hpos)).2 hlt
        omega
    have hk : (max (r.log2 + 1 + e - 53) (-1074) - e).toNat = 0 := by omega
    refine ⟨_, _, shift_eq _ hk, .inl ⟨hlt, rfl, ?_⟩⟩
    omega
  · have hlog : (2 ^ 53).log2 = 53 := Nat.log2_two_pow
    have hk : (max ((2 ^ 53).log2 + 1 + e - 53) (-1074) - e).toNat = 1 := by
      omega
    refine ⟨_, _, shift_eq _ hk, .inr ⟨rfl, ?_, rfl⟩⟩
    rw [mantissa_shiftRight, mantissa_ofMantissaAndAccuracy]
    norm_num

/-! ## Rounding -/

/-- The factor that a sign stands for. -/
def factor : Sign → ℚ
  | .negative => -1
  | .positive => 1

theorem abs_factor (s : Sign) : |factor s| = 1 := by
  cases s <;> simp [factor]

theorem factor_neg (s : Sign) : factor (-s) = -factor s := by
  cases s
  · exact (neg_neg (1 : ℚ)).symm
  · rfl

theorem factor_ne_zero (s : Sign) : factor s ≠ 0 := by
  cases s <;> norm_num [factor]

theorem factor_mul (s t : Sign) : factor (s * t) = factor s * factor t := by
  cases s <;> cases t
  · exact show (1 : ℚ) = -1 * -1 by norm_num
  · exact show (-1 : ℚ) = -1 * 1 by norm_num
  · exact show (-1 : ℚ) = 1 * -1 by norm_num
  · exact show (1 : ℚ) = 1 * 1 by norm_num

theorem factor_div (s t : Sign) : factor (s / t) = factor s / factor t := by
  have hmul : s / t * t = s := by cases s <;> cases t <;> rfl
  rw [eq_div_iff (factor_ne_zero t), ← factor_mul, hmul]

/-- The number that a finite double stands for. -/
def valueOf : UnpackedFloat → ℚ
  | .finite s m e _ => factor s * m * 2 ^ e
  | _ => 0

@[simp]
theorem valueOf_zero (s : Sign) : valueOf (.zero s) = 0 := rfl

theorem valueOf_finite (s : Sign) (m : ℕ) (e : ℤ) (hm : 0 < m) :
    valueOf (.finite s m e hm) = factor s * m * 2 ^ e := rfl

/-- Whether a number is written with as many bits as there are, of which all
but the smallest numbers need all. -/
def Canonical : UnpackedFloat → Prop
  | .finite _ m e _ => m < 2 ^ 53 ∧ -1074 ≤ e ∧ (e = -1074 ∨ 2 ^ 52 ≤ m)
  | _ => True

/-- Whether a double is what a number is rounded to, as far as it is not too
large. -/
def Rounded (v : ℚ) (u : UnpackedFloat) : Prop :=
  u.isFinite = true ∧ Canonical u ∧ IsNearest v (valueOf u)

/-- The mantissa with what is dropped up to the target exponent: it has at most
53 bits, and it has all of them unless the unit is the smallest. -/
theorem shifted_bounds {m k : ℕ} {e : ℤ} (hbits : 52 ≤ m.log2 ∨ e ≤ -1074)
    (hk : (max (m.log2 + 1 + e - 53) (-1074) - e).toNat = k) :
    m / 2 ^ k < 2 ^ 53 ∧ -1074 ≤ e + k ∧
      (e + k = -1074 ∨ 2 ^ 52 ≤ m / 2 ^ k) := by
  refine ⟨?_, by omega, ?_⟩
  · rw [Nat.div_lt_iff_lt_mul (Nat.two_pow_pos k), ← Nat.pow_add]
    exact Nat.lt_of_lt_of_le Nat.lt_log2_self
      (Nat.pow_le_pow_right two_pos (by omega))
  · by_cases hmin : e + k = -1074
    · exact .inl hmin
    · have hm : m ≠ 0 := by
        rintro rfl
        simp at hbits hk
        omega
      rw [Nat.le_div_iff_mul_le (Nat.two_pow_pos k), ← Nat.pow_add,
        show 52 + k = m.log2 by omega]
      exact .inr (Nat.log2_self_le hm)

/-- A rounded mantissa is nearest if it has bits enough for its unit. -/
theorem isNearest_rounded {t : ℤ} (h : Approximates em x) (ht : -1074 ≤ t)
    (hrounded : em.roundedMantissa ≤ 2 ^ 53)
    (hnormal : t = -1074 ∨ 2 ^ 52 ≤ em.mantissa) (s : Sign) :
    IsNearest (factor s * x * 2 ^ t)
      (factor s * em.roundedMantissa * 2 ^ t) := by
  have hsigned : factor s * em.roundedMantissa =
      ((s.apply em.roundedMantissa : ℤ) : ℚ) := by
    cases s <;> simp [factor, Sign.apply]
  rw [hsigned]
  refine isNearest_of_half ?_ ?_ ht ?_
  · rw [← hsigned, ← mul_sub, abs_mul, abs_factor, one_mul]
    exact h.half
  · have habs : |s.apply em.roundedMantissa| = em.roundedMantissa := by
      cases s <;> simp [Sign.apply]
    rw [habs]
    exact_mod_cast hrounded
  · refine hnormal.imp_right fun hnormal => ?_
    have hx := h.bounds.1
    rw [abs_mul, abs_factor, one_mul,
      abs_of_nonneg ((Nat.cast_nonneg _).trans hx)]
    exact le_trans (by exact_mod_cast hnormal) hx

/-- Rounding a mantissa that has bits enough, or whose unit is as small as any,
gives the nearest number, written with as many bits as there are. -/
theorem roundWithAccuracy_spec {m : ℕ} {e : ℤ} {accuracy : Accuracy}
    (hx : Approximates (.ofMantissaAndAccuracy m accuracy) x)
    (hbits : 52 ≤ m.log2 ∨ e ≤ -1074) (s : Sign) :
    Rounded (factor s * x * 2 ^ e)
      (roundWithAccuracy .binary64 s m e accuracy) := by
  obtain ⟨k, hk⟩ :
      ∃ k, (max (m.log2 + 1 + e - 53) (-1074) - e).toNat = k := ⟨_, rfl⟩
  obtain ⟨hsmall, hunit, hnormal⟩ := shifted_bounds hbits hk
  have happrox := hx.shiftRight k
  have hmantissa := mantissa_shiftRight
    (.ofMantissaAndAccuracy m accuracy) k
  rw [mantissa_ofMantissaAndAccuracy] at hmantissa
  have hshift := shift_eq accuracy hk
  generalize ExtendedMantissa.ofMantissaAndAccuracy m accuracy >>> k = em
    at happrox hmantissa hshift
  rw [← hmantissa] at hsmall hnormal
  obtain ⟨hlow, hhigh⟩ := roundedMantissa_bounds em
  have hrounded : em.roundedMantissa ≤ 2 ^ 53 := by omega
  have hnearest := isNearest_rounded happrox hunit hrounded hnormal s
  have hexact : factor s * (x / 2 ^ k) * 2 ^ (e + k) =
      factor s * x * 2 ^ e := by
    have hunits : x / 2 ^ k * 2 ^ k = x :=
      div_mul_cancel₀ x (pow_ne_zero k two_ne_zero)
    rw [two_zpow_add, zpow_natCast]
    linear_combination factor s * 2 ^ e * hunits
  obtain ⟨em', e', hcarry, hcases⟩ := shift_carry hrounded hunit
  have hvalue : factor s * em.roundedMantissa * 2 ^ (e + k) =
      factor s * em'.mantissa * 2 ^ e' := by
    rcases hcases with ⟨-, hmantissa, rfl⟩ | ⟨hfull, hmantissa, rfl⟩
    · rw [hmantissa]
    · rw [hmantissa, hfull, two_zpow_add (e + k) 1, zpow_one]
      push_cast
      ring
  rw [hexact, hvalue] at hnearest
  rw [roundWithAccuracy, hshift]
  simp only [hcarry]
  split
  · next hzero =>
      rw [hzero, Nat.cast_zero, mul_zero, zero_mul] at hnearest
      exact ⟨rfl, trivial, hnearest⟩
  · refine ⟨rfl, ?_, hnearest⟩
    show em'.mantissa < 2 ^ 53 ∧ -1074 ≤ e' ∧
      (e' = -1074 ∨ 2 ^ 52 ≤ em'.mantissa)
    omega

theorem log2_mul_two_pow {m : ℕ} (hm : 0 < m) (k : ℕ) :
    (m * 2 ^ k).log2 = m.log2 + k := by
  have hpow := Nat.two_pow_pos k
  refine (Nat.log2_eq_iff (Nat.ne_of_gt (Nat.mul_pos hm hpow))).2 ⟨?_, ?_⟩
  · rw [Nat.pow_add]
    exact Nat.mul_le_mul_right _ (Nat.log2_self_le (Nat.ne_of_gt hm))
  · rw [Nat.add_right_comm, Nat.pow_add]
    exact Nat.mul_lt_mul_of_pos_right Nat.lt_log2_self hpow

/-- Bits are filled in first where there are not enough. -/
theorem round_spec {m : ℕ} (hm : 0 < m) (e : ℤ) (s : Sign) :
    Rounded (factor s * m * 2 ^ e) (UnpackedFloat.round .binary64 s m e) := by
  obtain ⟨k, hk⟩ :
      ∃ k, (e - max (m.log2 + 1 + e - 53) (-1074)).toNat = k := ⟨_, rfl⟩
  have hfilled : UnpackedFloat.round .binary64 s m e =
      roundWithAccuracy .binary64 s (m * 2 ^ k) (e - k) .exact := by
    rw [UnpackedFloat.round, target_eq]
    simp only [decreaseExponent, hk]
    rw [Nat.shiftLeft_eq]
  have hlog := log2_mul_two_pow hm k
  have hvalue : factor s * ((m * 2 ^ k : ℕ) : ℚ) * 2 ^ (e - k) =
      factor s * m * 2 ^ e := by
    rw [sub_eq_add_neg, two_zpow_add, zpow_neg, zpow_natCast]
    push_cast
    have hunits : (2 : ℚ) ^ k * (2 ^ k)⁻¹ = 1 :=
      mul_inv_cancel₀ (pow_ne_zero k two_ne_zero)
    linear_combination factor s * m * 2 ^ e * hunits
  have hspec := roundWithAccuracy_spec (e := e - k)
    (approximates_exact (m * 2 ^ k)) (by omega) s
  rwa [← hfilled, hvalue] at hspec

/-- An exact result with a sign of its own, where the sign of zero is given. -/
theorem normalize_spec (n e : ℤ) (s : Sign) :
    Rounded (n * 2 ^ e) (UnpackedFloat.normalize .binary64 n e s) := by
  rcases lt_trichotomy n 0 with hn | rfl | hn
  · have hcompare : compare n 0 = .lt := compare_lt_iff_lt.2 hn
    obtain ⟨m, hm⟩ := Int.eq_ofNat_of_zero_le (neg_nonneg.2 hn.le)
    have hspec := round_spec (m := m) (by omega) e .negative
    have hvalue : factor .negative * (m : ℚ) * 2 ^ e = n * 2 ^ e := by
      have hneg : ((-n : ℤ) : ℚ) = m := by exact_mod_cast hm
      rw [factor, ← hneg]
      push_cast
      ring
    rw [hvalue] at hspec
    rw [UnpackedFloat.normalize]
    simp only [hcompare, hm, Int.toNat_natCast]
    exact hspec
  · refine ⟨rfl, trivial, ?_⟩
    rw [Int.cast_zero, zero_mul]
    exact isNearest_self (representable_intCast (n := 0) (by norm_num))
  · have hcompare : compare n 0 = .gt := compare_gt_iff_gt.2 hn
    obtain ⟨m, rfl⟩ := Int.eq_ofNat_of_zero_le hn.le
    have hspec := round_spec (m := m) (by omega) e .positive
    rw [factor, one_mul] at hspec
    rw [UnpackedFloat.normalize]
    simp only [hcompare, Int.toNat_natCast]
    exact_mod_cast hspec

end MapStyle.Number
