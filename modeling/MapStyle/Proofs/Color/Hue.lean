import MapStyle.Color.Css
import MapStyle.Proofs.Number.Ranges
import MapStyle.Proofs.Number.Ties

/-!
# Channels of a hue

The color of a hue, a saturation and a lightness has its channels between zero
and one in doubles as well, where each step is rounded (`ofHsl_between`).

Rounding may turn the order of the two ends of a ramp around and carry a sum to
the double after one. What keeps the channels in range is that an end is in the
range itself (`ends_between`), that six times a sixth of a difference is not more
than the difference by anything that is seen next to the ends
(`abs_le_of_sixfold`), and that a sum less than half a unit above one is one
(`value_sub_le_one`). A hue that is NaN is in no part of the turn and leaves the
channels at an end.
-/

namespace MapStyle

namespace Number

open Float.Model Float.Model.UnpackedFloat

variable {D X P T : ℚ}

/-- A sixth of the way, or less by as little as doubles can tell, is not passed
by more than the smallest of them. -/
theorem abs_le_of_sixfold (hX : 0 ≤ X) (hX' : X * 6 ≤ 1 - 2 ^ (-52 : ℤ))
    (hP : IsNearest (D * X) P) (hT : IsNearest (P * 6) T) :
    |T| ≤ |D| + 2 ^ (-1072 : ℤ) := by
  have hP := hP.relative_error_le
  have hT := hT.relative_error_le
  have hη : (2 : ℚ) ^ (-1072 : ℤ) = 8 * 2 ^ (-1075 : ℤ) := by
    rw [show (-1072 : ℤ) = 3 + -1075 by norm_num, two_zpow_add]
    norm_num
  have hpos := two_zpow_pos (-1075)
  rw [hη]
  generalize (2 : ℚ) ^ (-1075 : ℤ) = η at *
  rw [abs_mul, abs_of_nonneg hX] at hP
  rw [abs_mul, abs_of_pos (by norm_num : (0 : ℚ) < 6)] at hT
  have hP' : |P| ≤ |D| * X * (1 + 2 ^ (-53 : ℤ)) + η := by
    have h := abs_sub_abs_le_abs_sub P (D * X)
    rw [abs_mul D, abs_of_nonneg hX] at h
    linarith
  have hT' : |T| ≤ |P| * 6 * (1 + 2 ^ (-53 : ℤ)) + η := by
    have h := abs_sub_abs_le_abs_sub T (P * 6)
    rw [abs_mul P, abs_of_pos (by norm_num : (0 : ℚ) < 6)] at h
    linarith
  have hD : |D| * (X * 6) ≤ |D| * (1 - 2 ^ (-52 : ℤ)) :=
    mul_le_mul_of_nonneg_left hX' (abs_nonneg D)
  norm_num at hP' hT' hD
  have := abs_nonneg D
  linarith

/-- What is less than a number of parts in doubles is less. -/
theorem value_mul_lt {x : Float} {m n : ℕ} (hx : Between 0 1 x) (hmn : m ≤ n)
    (hn : n ≤ 2 ^ 53) (h : x * Float.ofNat n < Float.ofNat m) :
    value x * n < m := by
  obtain ⟨hfinite, hnonneg, hle⟩ := hx
  obtain ⟨hm', hm⟩ := value_ofNat_of_le (hmn.trans hn)
  obtain ⟨hn', hvalue⟩ := value_ofNat_of_le hn
  by_contra hge
  have hproduct := roundsTo_mul hfinite hn'
  rw [hvalue] at hproduct
  obtain ⟨hfinite', hge, -⟩ := hproduct.between (isValue_natCast (hmn.trans hn))
    (isValue_natCast hn) (not_lt.1 hge)
    (mul_le_of_le_one_left (Nat.cast_nonneg n) hle)
  exact Number.not_lt_of_le ((le_iff_value hm' hfinite').2 (hm ▸ hge)) h

/-- Only the double next to a sixth is this near below it. -/
theorem unpack_eq_sixth {x : Float} (hx : Between 0 1 x)
    (hlt : value x * 6 < 1) (hgt : 1 - 2 ^ (-52 : ℤ) < value x * 6) :
    x.toModel.unpack = (1 / 6 : Float).toModel.unpack := by
  obtain ⟨hfinite, hnonneg, -⟩ := hx
  obtain ⟨k, hk⟩ := (representable_value x).of_lt_abs (n := -56) (by
    rw [abs_of_nonneg hnonneg]
    norm_num at hgt ⊢
    linarith)
  obtain rfl : k = 6004799503160661 := by
    rw [hk] at hgt hlt
    norm_num at hgt hlt
    have hlow : (6004799503160660 : ℚ) < k := by linarith
    have hhigh : (k : ℚ) < 6004799503160662 := by linarith
    have hlow : (6004799503160660 : ℤ) < k := by exact_mod_cast hlow
    have hhigh : k < (6004799503160662 : ℤ) := by exact_mod_cast hhigh
    omega
  have hsixth : (1 / 6 : Float).toModel.unpack =
      .finite .positive 6004799503160661 (-55) (by decide) := by rfl
  refine eq_of_valueOf_eq hfinite (by rw [hsixth]; rfl) (canonical_unpack x)
    (canonical_unpack _) ?_ ?_ <;> rw [hsixth, valueOf_finite, factor]
  · rw [← value, hk]
    norm_num
  · norm_num

/-- A double of which six do not make one falls short of a sixth by as little as
doubles can tell. Six times the double next to a sixth is rounded to one. -/
theorem sixfold_le {x : Float} (hx : Between 0 1 x) (h : x * 6 < 1) :
    value x * 6 ≤ 1 - 2 ^ (-52 : ℤ) := by
  have hlt := value_mul_lt (m := 1) (n := 6) hx (by decide) (by decide) h
  rw [Nat.cast_ofNat, Nat.cast_one] at hlt
  by_contra hgt
  have hunpack := unpack_eq_sixth hx hlt (not_le.1 hgt)
  have hsame : x * 6 = 1 / 6 * 6 := by
    show Float.ofModel (.pack (UnpackedFloat.mul .binary64 x.toModel.unpack
      (6 : Float).toModel.unpack)) = _
    rw [hunpack]
    rfl
  rw [hsame] at h
  exact absurd h (by decide +kernel)

end Number

namespace Color

open Number

/-- The channel that is farthest from gray, on the lighter side. -/
def peak (s l : Float) : Float :=
  if l ≤ 0.5 then l * (s + 1) else l + s - l * s

/-- The channel that is farthest from gray, on the darker side. -/
def trough (s l : Float) : Float :=
  l * 2 - peak s l

/-- A hue moved back by one turn, if it is not within the first one. -/
def turned (h : Float) : Float :=
  if h < 0 then h + 1 else if 1 < h then h - 1 else h

/-- The channel at `x` on the sixth of a turn from `low` to `high`. -/
def ramp (low high x : Float) : Float :=
  low + (high - low) * x * 6

def hueChannel (low high h : Float) : Float :=
  if turned h * 6 < 1 then ramp low high (turned h)
  else if turned h * 2 < 1 then high
  else if turned h * 3 < 2 then ramp low high (2 / 3 - turned h)
  else low

theorem ofHsl_eq (h s l a : Float) : ofHsl h s l a =
    ⟨hueChannel (trough s l) (peak s l) (positiveRemainder h 360 / 360 + 1 / 3),
      hueChannel (trough s l) (peak s l) (positiveRemainder h 360 / 360),
      hueChannel (trough s l) (peak s l) (positiveRemainder h 360 / 360 - 1 / 3),
      a⟩ := rfl

/-! ## Hues -/

theorem turned_between {h : Float} (hh : Between (-1) 2 h) :
    Between 0 1 (turned h) := by
  obtain ⟨hfinite, hlow, hhigh⟩ := hh
  obtain ⟨hzero, hzero₁, hzero₂⟩ := between_zero
  obtain ⟨hone, hone₁, hone₂⟩ := between_one
  rw [turned]
  split
  · next hneg =>
      have hneg := (lt_iff_value hfinite hzero).1 hneg
      exact (roundsTo_add hfinite hone).between isValue_zero isValue_one
        (by linarith) (by linarith)
  · next hnonneg =>
      have hnonneg := not_lt.1 fun h => hnonneg ((lt_iff_value hfinite hzero).2 h)
      split
      · next hlarge =>
          have hlarge := (lt_iff_value hone hfinite).1 hlarge
          exact (roundsTo_sub hfinite hone).between isValue_zero isValue_one
            (by linarith) (by linarith)
      · next hsmall =>
          have hsmall := not_lt.1 fun h => hsmall ((lt_iff_value hone hfinite).2 h)
          exact ⟨hfinite, by linarith, by linarith⟩

/-- Doubling is exact. -/
theorem value_double {x : Float} (hx : Between 0 1 x) :
    (x * 2).isFinite = true ∧ value (x * 2) = value x * 2 := by
  obtain ⟨hfinite, hnonneg, hle⟩ := hx
  obtain ⟨htwo, hvalue⟩ := value_ofNat_of_le (n := 2) (by decide)
  have hdouble := roundsTo_mul hfinite htwo
  rw [hvalue, Nat.cast_ofNat] at hdouble
  obtain ⟨hfinite', -, -⟩ := hdouble.between isValue_zero isValue_two (by linarith)
    (by linarith)
  exact ⟨hfinite', (hdouble.nearest_of_isFinite hfinite').eq_self
    (by simpa using (representable_value x).mul_two_pow 1)⟩

theorem value_twoThirds :
    value (2 / 3 : Float) = 6004799503160661 * 2 ^ (-53 : ℤ) := by
  have hunpack : (2 / 3 : Float).toModel.unpack =
      .finite .positive 6004799503160661 (-53) (by decide) := by rfl
  rw [value, hunpack, valueOf_finite, factor, one_mul, Nat.cast_ofNat]

/-- Two thirds are rounded down, and to the last double below them. -/
theorem le_twoThirds {h : Float} (hh : Between 0 1 h) (hthird : h * 3 < 2) :
    value h ≤ value (2 / 3 : Float) := by
  have hlt := value_mul_lt (m := 2) (n := 3) hh (by decide) (by decide) hthird
  rw [Nat.cast_ofNat, Nat.cast_ofNat] at hlt
  rw [value_twoThirds]
  rcases le_or_gt (value h) (1 / 2) with hle | hgt
  · norm_num
    linarith
  · obtain ⟨k, hk⟩ := (representable_value h).of_lt_abs (n := -54) (by
      rw [abs_of_nonneg hh.2.1]
      norm_num
      linarith)
    rw [hk] at hlt ⊢
    norm_num at hlt
    have hk : (k : ℚ) < 6004799503160662 := by linarith
    have hk : k < (6004799503160662 : ℤ) := by exact_mod_cast hk
    have hk : (k : ℚ) ≤ 6004799503160661 := by
      exact_mod_cast Int.lt_add_one_iff.1 hk
    norm_num
    linarith

/-- From two thirds of a turn back to a hue after the half of it. -/
theorem thirds_sub_between {h : Float} (hh : Between 0 1 h)
    (hhalf : ¬ h * 2 < 1) (hthird : h * 3 < 2) :
    Between 0 (1501199875790165 * 2 ^ (-53 : ℤ)) (2 / 3 - h) := by
  obtain ⟨hdouble, hexact⟩ := value_double hh
  have hone := between_one
  have hlow : 1 ≤ value h * 2 := by
    rw [← hexact]
    exact hone.2.1.trans (not_lt.1 fun hlt =>
      hhalf ((lt_iff_value hdouble hone.1).2 hlt))
  have hhigh := le_twoThirds hh hthird
  have hdifference := roundsTo_sub (by rfl : (2 / 3 : Float).isFinite = true) hh.1
  refine hdifference.between isValue_zero ?_ (sub_nonneg.2 hhigh) ?_
  · exact_mod_cast isValue_units (k := 1501199875790165) (e := -53)
      (by norm_num) (by decide) (by decide)
  · rw [value_twoThirds]
    norm_num
    linarith

/-! ## Ramps -/

/-- Six times a sixth of a number does not exceed it by more than the smallest
doubles, and has its sign. -/
theorem sixfold_mul {d x : Float} (hd : Between (-1) 1 d) (hx : x.isFinite = true)
    (hnonneg : 0 ≤ value x) (hsixth : value x * 6 ≤ 1 - 2 ^ (-52 : ℤ)) :
    (d * x * 6).isFinite = true ∧
      |value (d * x * 6)| ≤ |value d| + 2 ^ (-1072 : ℤ) ∧
      (0 ≤ value d → 0 ≤ value (d * x * 6)) ∧
      (value d ≤ 0 → value (d * x * 6) ≤ 0) := by
  obtain ⟨hd, hlow, hhigh⟩ := hd
  obtain ⟨hsix, hvalue⟩ := value_ofNat_of_le (n := 6) (by decide)
  rw [Nat.cast_ofNat] at hvalue
  have hsmall : |value d * value x| ≤ 1 := by
    rw [abs_mul, abs_of_nonneg hnonneg]
    refine mul_le_one₀ (abs_le.2 ⟨hlow, hhigh⟩) hnonneg ?_
    linarith [two_zpow_pos (-52)]
  have hproduct := roundsTo_mul hd hx
  obtain ⟨hp, hp₁, hp₂⟩ := hproduct.between isValue_one.neg isValue_one
    (abs_le.1 hsmall).1 (abs_le.1 hsmall).2
  have hp' := hproduct.nearest_of_isFinite hp
  have hsixfold := roundsTo_mul hp hsix
  rw [hvalue] at hsixfold
  have hends : IsValue 6 := by
    exact_mod_cast isValue_natCast (n := 6) (by decide)
  obtain ⟨ht, -, -⟩ := hsixfold.between hends.neg hends (by linarith)
    (by linarith)
  have ht' := hsixfold.nearest_of_isFinite ht
  refine ⟨ht, abs_le_of_sixfold hnonneg hsixth hp' ht', fun hpos => ?_,
    fun hneg => ?_⟩
  · have := hp'.ge_of_ge isValue_zero.1 (mul_nonneg hpos hnonneg)
    exact ht'.ge_of_ge isValue_zero.1 (by linarith)
  · have := hp'.le_of_le isValue_zero.1
      (mul_nonpos_of_nonpos_of_nonneg hneg hnonneg)
    exact ht'.le_of_le isValue_zero.1 (by linarith)

section Ramp

variable {low high x h : Float} (hlow : Between 0 1 low)
  (hhigh : Between 0 1 high)
  (horder : value low ≤ value high ∨ 1 / 4 ≤ value high)

include hlow hhigh horder

/-- A channel does not leave the range on the way from one end to the other,
even where rounding has put the ends in the wrong order. -/
theorem ramp_between (hx : x.isFinite = true) (hnonneg : 0 ≤ value x)
    (hsixth : value x * 6 ≤ 1 - 2 ^ (-52 : ℤ)) :
    Between 0 1 (ramp low high x) := by
  obtain ⟨hlow, hlow₀, hlow₁⟩ := hlow
  obtain ⟨hhigh, hhigh₀, hhigh₁⟩ := hhigh
  have hdifference := roundsTo_sub hhigh hlow
  have hd := hdifference.between isValue_one.neg isValue_one (by linarith)
    (by linarith)
  have hd' := hdifference.nearest_of_isFinite hd.1
  have hoff := hd'.error_le (n := -53) (by decide) (by
    rw [abs_le]
    norm_num
    constructor <;> linarith)
  obtain ⟨ht, hsize, hpos, hneg⟩ := sixfold_mul hd hx hnonneg hsixth
  have hsum := roundsTo_add hlow ht
  have htiny : (2 : ℚ) ^ (-1072 : ℤ) < 2 ^ (-54 : ℤ) := two_zpow_lt (by decide)
  rw [ramp]
  generalize (high - low) * x * 6 = t at *
  generalize high - low = d at *
  have hrange : 0 ≤ value low + value t ∧
      value low + value t < 1 + 2 ^ (-53 : ℤ) := by
    generalize (2 : ℚ) ^ (-1072 : ℤ) = η at *
    rw [abs_le] at hoff hsize
    norm_num at hoff htiny ⊢
    rcases le_total 0 (value d) with hd | hd
    · have := hpos hd
      rw [abs_of_nonneg hd] at hsize
      constructor <;> linarith
    · have := hneg hd
      rw [abs_of_nonpos hd] at hsize
      refine ⟨?_, by linarith⟩
      obtain hle | hquarter := horder
      · have := hpos (hd'.ge_of_ge isValue_zero.1 (by linarith))
        linarith
      · linarith
  obtain ⟨hresult, hlow, -⟩ := hsum.between isValue_zero
    isValue_two hrange.1
    (by have := hrange.2; norm_num at this; linarith)
  exact ⟨hresult, hlow, (hsum.nearest_of_isFinite hresult).le_one hrange.2⟩

/-- The channel of any hue is in the range. -/
theorem hueChannel_between (hh : h.isNaN = true ∨ Between (-1) 2 h) :
    Between 0 1 (hueChannel low high h) := by
  obtain hnan | hh := hh
  · -- NaN is in no order, which leaves the last case.
    have hturned : turned h = h := by
      rw [turned, if_neg (not_lt_of_isNaN (.inl hnan)),
        if_neg (not_lt_of_isNaN (.inr hnan))]
    have hnot (y z : Float) : ¬ h * y < z :=
      not_lt_of_isNaN (.inl (KeepsNaN.mul.isNaN (.inl hnan)))
    rw [hueChannel, hturned, if_neg (hnot 6 1), if_neg (hnot 2 1),
      if_neg (hnot 3 2)]
    exact hlow
  · rw [hueChannel]
    have hturned := turned_between hh
    split
    · next hsix =>
        exact ramp_between hlow hhigh horder hturned.1 hturned.2.1
          (sixfold_le hturned hsix)
    · split
      · exact hhigh
      · next hhalf =>
          split
          · next hthird =>
              obtain ⟨hx, hnonneg, hle⟩ := thirds_sub_between hturned hhalf hthird
              refine ramp_between hlow hhigh horder hx hnonneg ?_
              norm_num at hle ⊢
              linarith
          · exact hlow

end Ramp

/-! ## Saturation and lightness -/

section Ends

variable {s l : Float}

/-- A lightness in the upper half is a number of units of `2 ^ -53`. -/
theorem exists_units (hl : Between 0 1 l) (hlight : 1 / 2 < value l) :
    ∃ k : ℤ, 2 ^ 52 < k ∧ k ≤ 2 ^ 53 ∧ value l = k * 2 ^ (-53 : ℤ) := by
  obtain ⟨hfinite, hnonneg, hle⟩ := hl
  obtain ⟨k, hk⟩ := (representable_value l).of_lt_abs (n := -54) (by
    rw [abs_of_nonneg hnonneg]
    norm_num
    linarith)
  rw [show (-54 : ℤ) + 1 = -53 by norm_num] at hk
  refine ⟨k, ?_, ?_, hk⟩
  · have : (2 ^ 52 : ℚ) < k := by
      rw [hk] at hlight
      norm_num at hlight ⊢
      linarith
    exact_mod_cast this
  · have : (k : ℚ) ≤ 2 ^ 53 := by
      rw [hk] at hle
      norm_num at hle ⊢
      linarith
    exact_mod_cast this

/-- What saturation and lightness are together above one is a value. -/
theorem representable_excess (hs : Between 0 1 s) (hl : Between 0 1 l)
    (hlight : 1 / 2 < value l) (h : 1 ≤ value l + value s) :
    Representable (value l + value s - 1) := by
  obtain ⟨j, -, -, hj⟩ := exists_units hl hlight
  obtain ⟨-, hs₀, hs₁⟩ := hs
  obtain ⟨-, hl₀, hl₁⟩ := hl
  obtain ⟨k, e, hk, he, he', hvalue⟩ :=
    (representable_value s).of_abs_le (n := -53) (by decide) (by
      rw [abs_of_nonneg hs₀]
      norm_num
      linarith)
  obtain ⟨i, hi⟩ := Int.le.dest he'
  have hrest : 1 - value l = (((2 ^ 53 - j) * 2 ^ i : ℤ) : ℚ) * 2 ^ e := by
    have hunit : (2 : ℚ) ^ (-53 : ℤ) = 1 / 2 ^ 53 := by norm_num
    push_cast
    rw [hj, mul_assoc, ← zpow_natCast 2 i, ← two_zpow_add, add_comm (i : ℤ), hi,
      hunit]
    ring
  have hexcess : value l + value s - 1 = k * 2 ^ e -
      (((2 ^ 53 - j) * 2 ^ i : ℤ) : ℚ) * 2 ^ e := by
    rw [← hrest, ← hvalue]
    ring
  rw [hexcess]
  refine representable_sub hk he ?_
  rw [← hexcess, ← hvalue, abs_of_nonneg (by linarith), abs_of_nonneg hs₀]
  linarith

theorem ends_of_dark (hs : Between 0 1 s) (hl : Between 0 1 l)
    (hdark : value l ≤ 1 / 2) : Between (value l) 1 (l * (s + 1)) ∧
      Between 0 (value l) (l * 2 - l * (s + 1)) := by
  obtain ⟨hdouble, hexact⟩ := value_double hl
  obtain ⟨hs, hs₀, hs₁⟩ := hs
  obtain ⟨hl, hl₀, hl₁⟩ := hl
  obtain ⟨hone, hone₁, hone₂⟩ := between_one
  obtain ⟨hsum, hsum₁, hsum₂⟩ := (roundsTo_add hs hone).between isValue_one
    isValue_two (by linarith)
    (by linarith)
  have hpeak : Between (value l) (value (l * 2)) (l * (s + 1)) := by
    refine (roundsTo_mul hl hsum).between (isValue_value _) (isValue_value _)
      ?_ ?_
    · exact le_mul_of_one_le_right hl₀ hsum₁
    · rw [hexact]
      exact mul_le_mul_of_nonneg_left hsum₂ hl₀
  refine ⟨hpeak.mono le_rfl (by linarith), ?_⟩
  obtain ⟨hp, hp₁, hp₂⟩ := hpeak
  exact (roundsTo_sub hdouble hp).between isValue_zero (isValue_value l)
    (by linarith) (by linarith)

theorem peak_of_light (hs : Between 0 1 s) (hl : Between 0 1 l)
    (hlight : 1 / 2 < value l) :
    Between (value l - 2 ^ (-53 : ℤ)) 1 (l + s - l * s) := by
  obtain ⟨k, hk, hk', hunits⟩ := exists_units hl hlight
  have hexcess := representable_excess hs hl hlight
  obtain ⟨hs, hs₀, hs₁⟩ := hs
  obtain ⟨hl, hl₀, hl₁⟩ := hl
  have hbelow : IsValue (value l - 2 ^ (-53 : ℤ)) := by
    have h := isValue_units (k := k - 1) (e := -53)
      (by rw [abs_of_nonneg] <;> omega) (by decide) (by decide)
    rw [hunits]
    push_cast at h
    rwa [sub_mul, one_mul] at h
  -- The sum is off by half a unit, and the product is not above `s`.
  have hsum := roundsTo_add hl hs
  obtain ⟨hS, hS₁, hS₂⟩ := hsum.between isValue_zero isValue_two (by linarith)
    (by linarith)
  have hS' := hsum.nearest_of_isFinite hS
  have hoff := hS'.error_le (n := -52) (by decide) (by
    rw [abs_of_nonneg (by linarith)]
    norm_num
    linarith)
  rw [abs_le] at hoff
  have hproduct := roundsTo_mul hl hs
  obtain ⟨hP, hP₁, hP₂⟩ := hproduct.between isValue_zero (isValue_value s)
    (mul_nonneg hl₀ hs₀) (mul_le_of_le_one_left hs₀ hl₁)
  have hP' := hproduct.nearest_of_isFinite hP
  have hle : value (l + s) - value (l * s) ≤ 1 + 2 ^ (-53 : ℤ) := by
    rcases le_or_gt 1 (value l + value s) with hover | hunder
    · have hge := hP'.ge_of_ge (hexcess hover)
        (by nlinarith [mul_nonneg (sub_nonneg.2 hl₁) (sub_nonneg.2 hs₁)])
      norm_num at hoff ⊢
      linarith
    · have := hS'.le_of_le isValue_one.1 hunder.le
      linarith [two_zpow_pos (-53)]
  obtain ⟨hpeak, hpeak', -⟩ := (roundsTo_sub hS hP).between hbelow isValue_two
    (by norm_num at hoff ⊢; linarith) (by norm_num at hle; linarith)
  exact ⟨hpeak, hpeak', value_sub_le_one hS hP hle⟩

/-- Both ends are in the range. They may be in the wrong order by rounding, but
not near zero. -/
theorem ends_between (hs : Between 0 1 s) (hl : Between 0 1 l) :
    Between 0 1 (trough s l) ∧ Between 0 1 (peak s l) ∧
      (value (trough s l) ≤ value (peak s l) ∨ 1 / 4 ≤ value (peak s l)) := by
  have hhalf : (0.5 : Float).isFinite = true ∧ value (0.5 : Float) = 1 / 2 := by
    have hunpack : (0.5 : Float).toModel.unpack =
        .finite .positive (2 ^ 52) (-53) (by decide) := by rfl
    refine ⟨by rfl, ?_⟩
    rw [value, hunpack, valueOf_finite, factor]
    norm_num
  rw [trough, peak]
  split
  · next hdark =>
      have hdark := (le_iff_value hl.1 hhalf.1).1 hdark
      rw [hhalf.2] at hdark
      obtain ⟨hpeak, htrough⟩ := ends_of_dark hs hl hdark
      exact ⟨htrough.mono le_rfl hl.2.2, hpeak.mono hl.2.1 le_rfl,
        .inl (htrough.2.2.trans hpeak.2.1)⟩
  · next hlight =>
      have hlight := not_le.1 fun h => hlight ((le_iff_value hl.1 hhalf.1).2 h)
      rw [hhalf.2] at hlight
      have hpeak := peak_of_light hs hl hlight
      obtain ⟨hdouble, hexact⟩ := value_double hl
      obtain ⟨hp, hp₁, hp₂⟩ := hpeak
      have hlow : value l - 1 / 4 ≤ value (l + s - l * s) :=
        (sub_le_sub_left (by norm_num) _).trans hp₁
      obtain ⟨htrough, htrough', -⟩ := (roundsTo_sub hdouble hp).between
        isValue_zero isValue_two (by linarith) (by linarith [hl.2.2])
      exact ⟨⟨htrough, htrough', value_sub_le_one hdouble hp
        (by linarith [hl.2.2])⟩, ⟨hp, by linarith, hp₂⟩, .inr (by linarith)⟩

end Ends

/-! ## Colors of a hue -/

section Hsl

variable {h s l a : Float}

/-- The hue as a part of a turn. -/
theorem turn_between (h : Float) :
    (positiveRemainder h 360 / 360).isNaN = true ∨
      Between 0 1 (positiveRemainder h 360 / 360) := by
  obtain ⟨hfull, hvalue⟩ := value_ofNat_of_le (n := 360) (by decide)
  rw [Nat.cast_ofNat] at hvalue
  have hpos : 0 < value (Float.ofNat 360) := by
    rw [hvalue]
    norm_num
  exact (positiveRemainder_between (x := h) hfull hpos).imp
    (fun hnan => KeepsNaN.div.isNaN (.inl hnan)) fun hr => hr.div hfull hpos

theorem ofHsl_between (hs : Between 0 1 s) (hl : Between 0 1 l) :
    Between 0 1 (ofHsl h s l a).r ∧ Between 0 1 (ofHsl h s l a).g ∧
      Between 0 1 (ofHsl h s l a).b := by
  obtain ⟨hlow, hhigh, horder⟩ := ends_between hs hl
  have hchannel {x : Float} := hueChannel_between (h := x) hlow hhigh horder
  have hthird : Between 0 1 (1 / 3 : Float) :=
    (between_one.mono zero_le_one (by norm_num)).div_ofNat (n := 3) (by decide)
      (by decide)
  obtain ⟨hthird, hthird₁, hthird₂⟩ := hthird
  rw [ofHsl_eq]
  obtain hnan | ht := turn_between h
  · exact ⟨hchannel (.inl (KeepsNaN.add.isNaN (.inl hnan))),
      hchannel (.inl hnan), hchannel (.inl (KeepsNaN.sub.isNaN (.inl hnan)))⟩
  · have hsame := ht.mono (by norm_num : (-1 : ℚ) ≤ 0)
      (by norm_num : (1 : ℚ) ≤ 2)
    obtain ⟨ht, ht₁, ht₂⟩ := ht
    refine ⟨hchannel (.inr ?_), hchannel (.inr hsame), hchannel (.inr ?_)⟩
    · exact (roundsTo_add ht hthird).between isValue_one.neg isValue_two
        (by linarith) (by linarith)
    · exact (roundsTo_sub ht hthird).between isValue_one.neg isValue_two
        (by linarith) (by linarith)

theorem hueChannel_isNaN {low high : Float} (hlow : low.isNaN = true)
    (hhigh : high.isNaN = true) (h : Float) :
    (hueChannel low high h).isNaN = true := by
  have hramp (x : Float) : (ramp low high x).isNaN = true :=
    KeepsNaN.add.isNaN (.inl hlow)
  rw [hueChannel]
  split
  · exact hramp _
  · split
    · exact hhigh
    · split
      · exact hramp _
      · exact hlow

/-- NaN as the saturation or the lightness is NaN in every channel. -/
theorem ofHsl_isNaN (hnan : s.isNaN = true ∨ l.isNaN = true) :
    (ofHsl h s l a).r.isNaN = true ∧ (ofHsl h s l a).g.isNaN = true ∧
      (ofHsl h s l a).b.isNaN = true := by
  have hpeak : (peak s l).isNaN = true := by
    rw [peak]
    split
    · next hle =>
        have hs := hnan.resolve_right fun hl => not_le_of_isNaN (.inl hl) hle
        exact KeepsNaN.mul.isNaN (.inr (KeepsNaN.add.isNaN (.inl hs)))
    · exact KeepsNaN.sub.isNaN (.inl (KeepsNaN.add.isNaN hnan.symm))
  have htrough : (trough s l).isNaN = true :=
    KeepsNaN.sub.isNaN (.inr hpeak)
  have hchannel := hueChannel_isNaN htrough hpeak
  rw [ofHsl_eq]
  exact ⟨hchannel _, hchannel _, hchannel _⟩

end Hsl

end Color

end MapStyle
