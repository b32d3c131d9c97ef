import MapStyle.Proofs.Number.Arithmetic
import MapStyle.Proofs.Number.Units

/-!
# Ties at one

Half a unit above one, the two doubles next to a number are equally near, and
the one with an even mantissa is chosen, which is one itself. So a difference
that is computed is at most one if the exact one is by no more than half a unit
larger (`value_sub_le_one`).
-/

namespace MapStyle.Number

open Float.Model Float.Model.UnpackedFloat

variable {v q : ℚ}

/-! ## Next to one -/

/-- There is no double between one and the next one. -/
theorem Representable.le_one_or_far (h : Representable q) :
    q ≤ 1 ∨ 1 + 2 ^ (-52 : ℤ) ≤ q := by
  rcases le_or_gt q 1 with hle | hlt
  · exact .inl hle
  · obtain ⟨k, rfl⟩ := h.of_lt_abs (n := -53) (by
      rw [abs_of_pos (one_pos.trans hlt)]
      norm_num [hlt])
    have hk : (2 : ℚ) ^ 52 < k := by
      norm_num at hlt ⊢
      linarith
    have hk : (2 : ℚ) ^ 52 + 1 ≤ k := by
      have hk : (2 : ℤ) ^ 52 < k := by exact_mod_cast hk
      exact_mod_cast hk
    right
    norm_num at hk ⊢
    linarith

theorem IsNearest.le_one (h : IsNearest v q) (hv : v < 1 + 2 ^ (-53 : ℤ)) :
    q ≤ 1 := by
  have hone : Representable 1 := by
    exact_mod_cast representable_intCast (n := 1) (by norm_num)
  rcases le_or_gt v 1 with hle | hlt
  · exact h.le_of_le hone hle
  · refine h.1.le_one_or_far.resolve_right fun hfar => ?_
    have hnear := h.2 1 hone
    rw [abs_of_nonneg (by norm_num at hv hfar; linarith), abs_of_neg (by linarith)]
      at hnear
    norm_num at hv hfar
    linarith

/-! ## Half a unit above one -/

theorem roundedMantissa_tie {em : ExtendedMantissa} {n : ℕ} (hn : n % 2 = 0)
    (h : Approximates em (n + 1 / 2)) : em.roundedMantissa = n := by
  obtain ⟨hlow, hhigh⟩ := h.bounds
  have hmantissa : em.mantissa = n := by
    have hlow : (em.mantissa : ℚ) < (n + 1 : ℕ) := by push_cast; linarith
    have hhigh : (n : ℚ) < (em.mantissa + 1 : ℕ) := by push_cast; linarith
    have hlow : em.mantissa < n + 1 := by exact_mod_cast hlow
    have hhigh : n < em.mantissa + 1 := by exact_mod_cast hhigh
    omega
  obtain ⟨m, round, sticky⟩ := em
  obtain rfl : m = n := hmantissa
  obtain ⟨rest, hrest, hrest', hsticky, heq⟩ := h
  -- The half is in the round bit, and there is nothing else.
  cases round with
  | false =>
      simp only [Bool.toNat_false, Nat.cast_zero] at heq
      linarith
  | true =>
      simp only [Bool.toNat_true, Nat.cast_one] at heq
      have hclear : sticky = false := hsticky.2 (by linarith)
      subst hclear
      show m + m % 2 = m
      omega

theorem valueOf_round_tie (j : ℕ) : valueOf (UnpackedFloat.round .binary64
    .positive ((2 ^ 53 + 1) * 2 ^ j) (-53 - j)) = 1 := by
  obtain ⟨m, hm⟩ : ∃ m, (2 ^ 53 + 1) * 2 ^ j = m := ⟨_, rfl⟩
  obtain ⟨e, he⟩ : ∃ e, -53 - (j : ℤ) = e := ⟨_, rfl⟩
  have hlog : m.log2 = 53 + j := by
    rw [← hm, log2_mul_two_pow (by norm_num)]
    rfl
  have hround : UnpackedFloat.round .binary64 .positive m e =
      roundWithAccuracy .binary64 .positive m e .exact := by
    have hk : (e - max (m.log2 + 1 + e - 53 : ℤ) (-1074)).toNat = 0 := by omega
    rw [UnpackedFloat.round, target_eq]
    simp only [decreaseExponent, hk]
    rw [Nat.shiftLeft_zero, Nat.cast_zero, sub_zero]
  -- All but 53 bits are dropped, and the last of the others is the half.
  have hshift := shift_eq (m := m) (k := j + 1) (e := e) .exact (by omega)
  have happrox := (approximates_exact m).shiftRight (j + 1)
  have htie : (m : ℚ) / 2 ^ (j + 1) = (2 ^ 52 : ℕ) + 1 / 2 := by
    rw [← hm, pow_succ, div_eq_iff (by positivity)]
    push_cast
    ring
  rw [htie] at happrox
  have hrounded := roundedMantissa_tie (by norm_num) happrox
  have hexponent : e + (j + 1 : ℕ) = -52 := by omega
  rw [hexponent] at hshift
  obtain ⟨em, e', hcarry, hcases⟩ :=
    shift_carry (r := 2 ^ 52) (e := -52) (by norm_num) (by decide)
  obtain ⟨-, hmantissa, rfl⟩ := hcases.resolve_right (by norm_num)
  rw [hm, he, hround, roundWithAccuracy, hshift]
  simp only [hrounded, hcarry]
  rw [dif_neg (by rw [hmantissa]; norm_num), valueOf_finite, hmantissa, factor]
  norm_num

/-- Half a unit above one takes 54 bits. -/
theorem units_of_tie {n e : ℤ} (h : (n : ℚ) * 2 ^ e = 1 + 2 ^ (-53 : ℤ)) :
    ∃ j : ℕ, n = ((2 ^ 53 + 1) * 2 ^ j : ℕ) ∧ e = -53 - j := by
  have hscaled : (n : ℚ) * 2 ^ (e + 53) = 2 ^ 53 + 1 := by
    rw [two_zpow_add, ← mul_assoc, h]
    norm_num
  rcases le_or_gt (e + 53) 0 with hle | hlt
  · obtain ⟨j, hj⟩ := Int.le.dest hle
    refine ⟨j, ?_, by omega⟩
    have hpow : (2 : ℚ) ^ (e + 53) * 2 ^ j = 1 := by
      rw [← zpow_natCast, ← two_zpow_add, hj, zpow_zero]
    have hn : (n : ℚ) = (2 ^ 53 + 1) * 2 ^ j := by
      rw [← hscaled, mul_assoc, hpow, mul_one]
    exact_mod_cast hn
  · obtain ⟨k, hk⟩ := Int.le.dest (Int.add_one_le_iff.2 hlt)
    rw [← hk, zero_add, two_zpow_add, zpow_one, zpow_natCast] at hscaled
    have heven : n * 2 ^ k * 2 = 2 ^ 53 + 1 := by
      have : (n : ℚ) * 2 ^ k * 2 = 2 ^ 53 + 1 := by linarith
      exact_mod_cast this
    omega

theorem valueOf_normalize_le_one {n e : ℤ} {s : Sign}
    (h : (n : ℚ) * 2 ^ e ≤ 1 + 2 ^ (-53 : ℤ)) :
    valueOf (UnpackedFloat.normalize .binary64 n e s) ≤ 1 := by
  obtain hlt | heq := lt_or_eq_of_le h
  · exact (normalize_spec n e s).2.2.le_one hlt
  · obtain ⟨j, rfl, rfl⟩ := units_of_tie heq
    have hcompare : compare (((2 ^ 53 + 1) * 2 ^ j : ℕ) : ℤ) 0 = .gt :=
      compare_gt_iff_gt.2 (by positivity)
    rw [UnpackedFloat.normalize]
    simp only [hcompare, Int.toNat_natCast]
    exact (valueOf_round_tie j).le

/-! ## Differences -/

theorem valueOf_sub_le_one {a b : UnpackedFloat} (ha : a.isFinite = true)
    (hb : b.isFinite = true) (ha' : Canonical a) (hb' : Canonical b)
    (h : valueOf a - valueOf b ≤ 1 + 2 ^ (-53 : ℤ)) :
    valueOf (UnpackedFloat.sub .binary64 a b) ≤ 1 := by
  obtain hlt | heq := lt_or_eq_of_le h
  · exact (rounded_sub ha hb ha' hb').2.2.le_one hlt
  · -- No double is half a unit above one, so neither operand is zero.
    have hnot {q : ℚ} (hq : Representable q) : q ≠ 1 + 2 ^ (-53 : ℤ) := by
      rintro rfl
      obtain hle | hfar := hq.le_one_or_far
      · norm_num at hle
      · norm_num at hfar
    cases a with
    | infinity | notANumber => cases ha
    | zero s =>
        rw [valueOf_zero, zero_sub] at heq
        exact absurd heq (hnot hb'.representable.neg)
    | finite s m e hm =>
        cases b with
        | infinity | notANumber => cases hb
        | zero t =>
            rw [valueOf_zero, sub_zero] at heq
            exact absurd heq (hnot ha'.representable)
        | finite t n f hn =>
            have hunits : ((s.apply (decreaseExponent m e (min e f)).1 -
                t.apply (decreaseExponent n f (min e f)).1 : ℤ) : ℚ) *
                  2 ^ min e f = valueOf (.finite s m e hm) -
                    valueOf (.finite t n f hn) := by
              rw [Int.cast_sub, sub_mul,
                decreaseExponent_value s m (min_le_left ..),
                decreaseExponent_value t n (min_le_right ..)]
              rfl
            exact valueOf_normalize_le_one (hunits.trans_le h)

theorem value_sub_le_one {x y : Float} (hx : x.isFinite = true)
    (hy : y.isFinite = true) (h : value x - value y ≤ 1 + 2 ^ (-53 : ℤ)) :
    value (x - y) ≤ 1 := by
  have hle := valueOf_sub_le_one hx hy (canonical_unpack x)
    (canonical_unpack y) h
  obtain ⟨hfinite, hcanonical, -⟩ :=
    rounded_sub hx hy (canonical_unpack x) (canonical_unpack y)
  show valueOf (Float.Model.pack (UnpackedFloat.sub .binary64 x.toModel.unpack
    y.toModel.unpack)).unpack ≤ 1
  obtain hkept | ⟨⟨s, hinf⟩, -⟩ := unpack_pack hcanonical hfinite
  · rwa [hkept]
  · rw [hinf]
    exact zero_le_one

end MapStyle.Number
