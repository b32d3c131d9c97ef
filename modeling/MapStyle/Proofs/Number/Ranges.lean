import MapStyle.Number.Order
import MapStyle.Number.Whole
import MapStyle.Proofs.Number.Bounded
import MapStyle.Proofs.Number.Nearest

/-!
# Doubles in a range

`Between lo hi x` says that `x` is finite and has a value from `lo` to `hi`. If
both ends are values of doubles, a result whose exact value is in the range is
in it as well (`RoundsTo.between`). So are clamped numbers, and remainders of a
positive divisor (`positiveRemainder_between`), unless they are NaN.
-/

namespace MapStyle.Number

open Float.Model Float.Model.UnpackedFloat

variable {lo hi v q : ℚ} {x y : Float}

/-! ## Values of doubles -/

/-- Whether a finite double stands for a number. -/
def IsValue (q : ℚ) : Prop :=
  Representable q ∧ |q| < 2 ^ (1024 : ℤ)

theorem isValue_value (x : Float) : IsValue (value x) :=
  ⟨representable_value x, abs_value_lt x⟩

theorem IsValue.neg (h : IsValue q) : IsValue (-q) :=
  ⟨h.1.neg, by rw [abs_neg]; exact h.2⟩

/-- A number of units that are not larger than one. -/
theorem isValue_units {k e : ℤ} (hk : |k| ≤ 2 ^ 53) (he : -1074 ≤ e)
    (he' : e ≤ 0) : IsValue (k * 2 ^ e) := by
  refine ⟨⟨k, e, hk, he, rfl⟩, ?_⟩
  have hk : |(k : ℚ)| ≤ 2 ^ (53 : ℤ) := by exact_mod_cast hk
  rw [abs_mul, abs_of_pos (two_zpow_pos e)]
  calc |(k : ℚ)| * 2 ^ e ≤ 2 ^ (53 : ℤ) * 2 ^ (0 : ℤ) :=
        mul_le_mul hk (two_zpow_le he') (two_zpow_pos e).le (two_zpow_pos _).le
    _ < 2 ^ (1024 : ℤ) := by
        rw [← two_zpow_add]
        exact two_zpow_lt (by decide)

theorem isValue_natCast {n : ℕ} (hn : n ≤ 2 ^ 53) : IsValue n := by
  have h := isValue_units (k := n) (e := 0)
    (by rw [Nat.abs_cast]; exact_mod_cast hn) (by decide) le_rfl
  rwa [zpow_zero, mul_one, Int.cast_natCast] at h

theorem isValue_zero : IsValue 0 := by
  exact_mod_cast isValue_natCast (n := 0) (by decide)

theorem isValue_one : IsValue 1 := by
  exact_mod_cast isValue_natCast (n := 1) (by decide)

theorem isValue_two : IsValue 2 := by
  exact_mod_cast isValue_natCast (n := 2) (by decide)

/-! ## Ranges -/

/-- Whether a double is finite and in a range. -/
def Between (lo hi : ℚ) (x : Float) : Prop :=
  x.isFinite = true ∧ lo ≤ value x ∧ value x ≤ hi

theorem Between.mono {lo' hi' : ℚ} (h : Between lo hi x) (hlo : lo' ≤ lo)
    (hhi : hi ≤ hi') : Between lo' hi' x :=
  ⟨h.1, hlo.trans h.2.1, h.2.2.trans hhi⟩

theorem Between.isNaN (h : Between lo hi x) : x.isNaN = false :=
  isNaN_of_isFinite h.1

/-- Rounding does not leave a range whose ends are values. -/
theorem RoundsTo.between (h : RoundsTo v x) (hlo : IsValue lo) (hhi : IsValue hi)
    (hle : lo ≤ v) (hle' : v ≤ hi) : Between lo hi x := by
  have hends : Representable (max |lo| |hi|) := by
    obtain hmax | hmax := max_choice |lo| |hi| <;> rw [hmax]
    · exact hlo.1.abs
    · exact hhi.1.abs
  obtain ⟨hfinite, hnearest⟩ := h.nearest hends
    (abs_le_max_abs_abs hle hle') (max_lt hlo.2 hhi.2)
  exact ⟨hfinite, hnearest.ge_of_ge hlo.1 hle, hnearest.le_of_le hhi.1 hle'⟩

theorem between_natCast {n : ℕ} (hn : n ≤ 2 ^ 53) :
    Between n n (Float.ofNat n) := by
  obtain ⟨hfinite, hvalue⟩ := value_ofNat_of_le hn
  exact ⟨hfinite, hvalue.ge, hvalue.le⟩

theorem isFinite_of_between {a b : Float} (ha : a.isFinite = true)
    (hb : b.isFinite = true) (hle : a ≤ x) (hle' : x ≤ b) : x.isFinite = true := by
  rcases isFinite_or x with hx | ⟨s, hs⟩ | hx
  · exact hx
  · cases s with
    | positive =>
        have hlt := (order_infinity hb hs).1.2 rfl
        exact absurd ((lt_iff_order _ _).2 hlt) (Number.not_lt_of_le hle')
    | negative =>
        have hgt := (order_infinity ha hs).2.2 rfl
        exact absurd ((gt_iff_order _ _).2 hgt) (Number.not_lt_of_le hle)
  · exact absurd hle (not_le_of_isNaN (.inr hx))

theorem between_iff {a b : Float} (ha : a.isFinite = true)
    (hb : b.isFinite = true) :
    Between (value a) (value b) x ↔ a ≤ x ∧ x ≤ b := by
  constructor
  · rintro ⟨hx, hlo, hhi⟩
    exact ⟨(le_iff_value ha hx).2 hlo, (le_iff_value hx hb).2 hhi⟩
  · rintro ⟨hlo, hhi⟩
    have hx := isFinite_of_between ha hb hlo hhi
    exact ⟨hx, (le_iff_value ha hx).1 hlo, (le_iff_value hx hb).1 hhi⟩

theorem between_zero : Between 0 0 (0 : Float) := by
  have h := between_natCast (n := 0) (by decide)
  rw [Nat.cast_zero] at h
  exact h

theorem between_one : Between 1 1 (1 : Float) := by
  have h := between_natCast (n := 1) (by decide)
  rw [Nat.cast_one] at h
  exact h

theorem zero_between : Between 0 1 (0 : Float) :=
  between_zero.mono le_rfl zero_le_one

theorem one_between : Between 0 1 (1 : Float) :=
  between_one.mono zero_le_one le_rfl

theorem between_natCast_iff {m n : ℕ} (hm : m ≤ 2 ^ 53) (hn : n ≤ 2 ^ 53) :
    Between m n x ↔ Float.ofNat m ≤ x ∧ x ≤ Float.ofNat n := by
  obtain ⟨hfinite, hvalue⟩ := value_ofNat_of_le hm
  obtain ⟨hfinite', hvalue'⟩ := value_ofNat_of_le hn
  rw [← between_iff hfinite hfinite', hvalue, hvalue']

theorem between_zero_one_iff : Between 0 1 x ↔ 0 ≤ x ∧ x ≤ 1 := by
  have h := between_natCast_iff (m := 0) (n := 1) (x := x) (by decide) (by decide)
  rw [Nat.cast_zero, Nat.cast_one] at h
  exact h

theorem Between.neg (h : Between lo hi x) : Between (-hi) (-lo) (-x) := by
  obtain ⟨hx, hlo, hhi⟩ := h
  refine ⟨by rw [isFinite_neg, hx], ?_, ?_⟩ <;> rw [value_neg]
  · exact neg_le_neg hhi
  · exact neg_le_neg hlo

theorem Between.div (hx : Between 0 (value y) x) (hy : y.isFinite = true)
    (hpos : 0 < value y) : Between 0 1 (x / y) := by
  obtain ⟨hx, hlow, hhigh⟩ := hx
  exact (roundsTo_div hx hy hpos.ne').between isValue_zero isValue_one
    (div_nonneg hlow hpos.le) (div_le_one_of_le₀ hhigh hpos.le)

theorem Between.div_ofNat {n : ℕ} (hx : Between 0 n x) (hn : 0 < n)
    (hn' : n ≤ 2 ^ 53) : Between 0 1 (x / Float.ofNat n) := by
  obtain ⟨hfinite, hvalue⟩ := value_ofNat_of_le hn'
  refine Between.div (by rwa [hvalue]) hfinite ?_
  rw [hvalue]
  exact_mod_cast hn

/-! ## Clamping -/

theorem clamp_between (hx : x.isNaN = false) : Between 0 1 (clamp 0 1 x) := by
  rw [clamp]
  split
  · exact zero_between
  · next hlow =>
      split
      · exact one_between
      · next hhigh =>
          have hlow : 0 ≤ x := by
            by_contra h
            exact hlow (lt_of_not_le between_zero.isNaN hx h)
          have hhigh : x ≤ 1 := by
            by_contra h
            exact hhigh (lt_of_not_le hx between_one.isNaN h)
          exact between_zero_one_iff.2 ⟨hlow, hhigh⟩

theorem not_lt_of_isNaN (h : x.isNaN = true ∨ y.isNaN = true) : ¬ x < y :=
  fun hlt => not_le_of_isNaN h (Number.le_of_lt hlt)

theorem clamp_of_isNaN (a b : Float) (hx : x.isNaN = true) : clamp a b x = x := by
  rw [clamp, if_neg (not_lt_of_isNaN (.inl hx)),
    if_neg (not_lt_of_isNaN (.inr hx))]

/-! ## Remainders -/

theorem roundsTo_ofUnits (n : ℕ) (e : ℤ) : RoundsTo (n * 2 ^ e) (ofUnits n e) := by
  have h := normalize_spec n e .positive
  rw [Int.cast_natCast] at h
  exact roundsTo_pack h

theorem mantissa_of_pos {b : Binary} (hb : Binary.ofFloat? y = some b)
    (hpos : 0 < value y) : 0 < b.mantissa ∧
      (b.mantissa : ℚ) * 2 ^ b.exponent = value y := by
  have hvalue := value_of_ofFloat? hb
  constructor
  · by_contra hzero
    rw [hvalue, Nat.eq_zero_of_not_pos hzero, Nat.cast_zero, mul_zero,
      zero_mul] at hpos
    exact lt_irrefl _ hpos
  · have habs := congrArg (|·|) hvalue
    rw [abs_of_pos hpos, abs_mul, abs_mul, abs_factor, one_mul, Nat.abs_cast,
      abs_of_pos (two_zpow_pos _)] at habs
    exact habs.symm

/-- The remainder is a number of units smaller than that of the divisor. -/
theorem remainder_between (hy : y.isFinite = true) (hpos : 0 < value y) :
    (remainder x y).isNaN = true ∨
      Between (-value y) (value y) (remainder x y) := by
  obtain ⟨b, hb⟩ := isFinite_iff_ofFloat?.1 hy
  obtain ⟨hmantissa, hvalue⟩ := mantissa_of_pos hb hpos
  rw [remainder, hb]
  cases ha : Binary.ofFloat? x with
  | none => exact .inl (show nan.isNaN = true by rfl)
  | some a =>
      right
      simp only [beq_iff_eq, hmantissa.ne', if_false]
      generalize hunit : min a.exponent b.exponent = unit
      obtain ⟨j, hj⟩ := Int.le.dest (hunit ▸ min_le_right a.exponent b.exponent)
      have hj' : (b.exponent - unit).toNat = j := by omega
      rw [hj', Nat.shiftLeft_eq b.mantissa]
      generalize a.mantissa <<< (a.exponent - unit).toNat = n
      have hlt : n % (b.mantissa * 2 ^ j) < b.mantissa * 2 ^ j :=
        Nat.mod_lt n (Nat.mul_pos hmantissa (Nat.two_pow_pos j))
      have hunits : ((b.mantissa * 2 ^ j : ℕ) : ℚ) * 2 ^ unit = value y := by
        rw [← hvalue, ← hj, two_zpow_add, zpow_natCast]
        push_cast
        ring
      generalize n % (b.mantissa * 2 ^ j) = r at hlt
      have hr : (r : ℚ) * 2 ^ unit ≤ value y := by
        rw [← hunits]
        exact mul_le_mul_of_nonneg_right (by exact_mod_cast hlt.le)
          (two_zpow_pos unit).le
      have hbetween := (roundsTo_ofUnits r unit).between isValue_zero
        (isValue_value y)
        (mul_nonneg (Nat.cast_nonneg r) (two_zpow_pos unit).le) hr
      split
      · exact hbetween.neg.mono le_rfl (by linarith)
      · exact hbetween.mono (by linarith) le_rfl

theorem positiveRemainder_between (hy : y.isFinite = true)
    (hpos : 0 < value y) : (positiveRemainder x y).isNaN = true ∨
      Between 0 (value y) (positiveRemainder x y) := by
  obtain ⟨hzero, hvalue⟩ := value_ofNat_of_le (n := 0) (by decide)
  rw [Nat.cast_zero] at hvalue
  obtain hnan | ⟨hr, hlow, hhigh⟩ := remainder_between (x := x) hy hpos
  · left
    rw [positiveRemainder, if_neg (not_lt_of_isNaN (.inl hnan))]
    exact hnan
  · right
    rw [positiveRemainder]
    split
    · next hneg =>
        have hneg := (lt_iff_value hr hzero).1 hneg
        rw [hvalue] at hneg
        have hsum := roundsTo_add hr (by rw [isFinite_abs, hy] : y.abs.isFinite = true)
        rw [value_abs, abs_of_pos hpos] at hsum
        exact hsum.between isValue_zero (isValue_value y) (by linarith)
          (by linarith)
    · next hnonneg =>
        have hnonneg := not_lt.1 fun h => hnonneg ((lt_iff_value hr hzero).2 h)
        rw [hvalue] at hnonneg
        exact ⟨hr, hnonneg, hhigh⟩

end MapStyle.Number
