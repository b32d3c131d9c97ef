import MapStyle.Number.Whole
import MapStyle.Proofs.Number.Arithmetic

/-!
# Natural numbers as doubles

`Float.ofNat n` is the double nearest to `n` (`roundsTo_ofNat`), which beyond
`2 ^ 53` need not be `n` itself. It never passes a double on the way there: if a
double is at least `n`, it is at least the double of `n` too
(`ofNat_le_of_le_wholePart`). This is what makes a bound on doubles a bound on
natural numbers, without any limit to their size (`wholePart_lt`).
-/

namespace MapStyle.Number

open Float.Model Float.Model.UnpackedFloat

/-! ## The fields of a double -/

section Fields

variable {x : Float} {b : Binary}

theorem exponentField_eq : Binary.exponentField x =
    (@unpackExponent .binary64 x.toModel.toBits.toBitVec).toNat := by
  rw [unpackExponent, BitVec.toNat_cast, BitVec.extractLsb_toNat,
    Nat.shiftRight_eq_div_pow]
  rfl

theorem fractionField_eq : Binary.fractionField x =
    (@unpackMantissa .binary64 x.toModel.toBits.toBitVec).toNat := by
  rw [unpackMantissa, BitVec.toNat_cast, BitVec.extractLsb_toNat,
    Nat.shiftRight_eq_div_pow]
  simp [Binary.fractionField, Binary.hiddenBit]
  rfl

/-- The sign that the leading bit of a double stands for. -/
theorem unpackSign_eq : Sign.ofBitVec
    (@unpackSign .binary64 x.toModel.toBits.toBitVec) =
      if 1 <<< 63 ≤ x.toBits.toNat then .negative else .positive := by
  have hsign : (@unpackSign .binary64 x.toModel.toBits.toBitVec).toNat =
      x.toBits.toNat / 2 ^ 63 % 2 := by
    rw [unpackSign, BitVec.toNat_cast, BitVec.extractLsb_toNat,
      Nat.shiftRight_eq_div_pow]
    rfl
  have hbits : x.toBits.toNat < 2 ^ 64 := x.toBits.toBitVec.isLt
  have hleading : x.toBits.toNat / 2 ^ 63 % 2 = 0 ↔
      ¬ 1 <<< 63 ≤ x.toBits.toNat := by
    show _ ↔ ¬ 2 ^ 63 ≤ _
    omega
  unfold Sign.ofBitVec
  split
  · next hzero =>
      rw [hzero] at hsign
      rw [if_neg (hleading.1 hsign.symm)]
  · next hone =>
      rw [← BitVec.toNat_inj, hsign] at hone
      rw [if_pos (not_not.1 fun h => hone (hleading.2 h))]

theorem fractionField_lt : Binary.fractionField x < 2 ^ 52 :=
  Nat.mod_lt _ (by decide)

/-- The sign of a double that is not zero. -/
def signOf (b : Binary) : Sign :=
  if b.negative then .negative else .positive

/-- A double is unpacked to the same sign and units, unless it is a zero. -/
theorem unpack_of_ofFloat? (h : Binary.ofFloat? x = some b) :
    x.toModel.unpack =
      if hpos : 0 < b.mantissa then
        .finite (signOf b) b.mantissa b.exponent hpos
      else .zero (signOf b) := by
  have hexponent := @exponentField_eq x
  have hfraction := @fractionField_eq x
  have hE (e : BitVec 11) : @unpackExponent .binary64
      x.toModel.toBits.toBitVec = e ↔ Binary.exponentField x = e.toNat := by
    rw [hexponent, BitVec.toNat_inj]
  have hM (m : BitVec 52) : @unpackMantissa .binary64
      x.toModel.toBits.toBitVec = m ↔ Binary.fractionField x = m.toNat := by
    rw [hfraction, BitVec.toNat_inj]
  have hlt := @fractionField_lt x
  unfold Float.Model.unpack UnpackedFloat.unpack
  unfold Binary.ofFloat? at h
  split at h
  · cases h
  · next hzero =>
      cases h
      simp only [unpackSign_eq, signOf, decide_eq_true_eq, hE, hM, hzero]
      rw [if_neg (by decide), if_pos (by decide)]
      by_cases hfrac : Binary.fractionField x = (0#52).toNat
      · rw [dif_pos hfrac, dif_neg]
        exact Nat.not_lt.2 (Nat.le_of_eq hfrac)
      · rw [dif_neg hfrac, dif_pos (Nat.pos_of_ne_zero hfrac)]
        congr 1
        rw [← hexponent, hzero]
        decide
  · next hmax hzero =>
      cases h
      have hpos : 0 < Binary.fractionField x + Binary.hiddenBit :=
        Nat.add_pos_right _ (by decide)
      simp only [unpackSign_eq, signOf, decide_eq_true_eq, hE, hM]
      rw [if_neg (by simpa using hmax), if_neg (by simpa using hzero),
        dif_pos hpos]
      congr 1
      · rw [BitVec.toNat_append, ← hfraction,
          ← Nat.shiftLeft_add_eq_or_of_lt hlt, Nat.add_comm]
        rfl
      · rw [← hexponent]
        show (_ : ℤ) - ((1023 : ℕ) + (52 : ℕ)) = _
        omega

/-- The doubles with an exact value are the finite ones. -/
theorem isFinite_iff_ofFloat? :
    x.isFinite = true ↔ ∃ b, Binary.ofFloat? x = some b := by
  constructor
  · intro hfinite
    cases hx : Binary.ofFloat? x with
    | some b => exact ⟨b, rfl⟩
    | none =>
        have hmax : Binary.exponentField x = 2047 := by
          unfold Binary.ofFloat? at hx
          split at hx
          · assumption
          · cases hx
          · cases hx
        have hexponent : @unpackExponent .binary64
            x.toModel.toBits.toBitVec = -1#11 := by
          rw [← BitVec.toNat_inj, ← exponentField_eq]
          exact hmax
        have hfinite : x.toModel.unpack.isFinite = true := hfinite
        unfold Float.Model.unpack UnpackedFloat.unpack at hfinite
        simp only at hfinite
        rw [if_pos hexponent] at hfinite
        split at hfinite <;> cases hfinite
  · rintro ⟨b, hb⟩
    show x.toModel.unpack.isFinite = true
    rw [unpack_of_ofFloat? hb]
    split <;> rfl

theorem value_of_ofFloat? (h : Binary.ofFloat? x = some b) :
    value x = factor (signOf b) * b.mantissa * 2 ^ b.exponent := by
  rw [value, unpack_of_ofFloat? h]
  split
  · rfl
  · next hzero =>
      rw [Nat.eq_zero_of_not_pos hzero, Nat.cast_zero, mul_zero, zero_mul]
      rfl

/-- The value of a finite double as a fraction. -/
theorem value_mul_denominator (h : Binary.ofFloat? x = some b) :
    value x * b.denominator = factor (signOf b) * b.numerator := by
  have hpow : (2 : ℚ) ^ b.exponent * 2 ^ (-b.exponent).toNat =
      2 ^ b.exponent.toNat := by
    rw [← zpow_natCast, ← zpow_natCast, ← two_zpow_add]
    congr 1
    omega
  rw [value_of_ofFloat? h, Binary.denominator, Binary.numerator,
    Nat.one_shiftLeft, Nat.shiftLeft_eq]
  push_cast
  rw [mul_assoc, hpow, mul_assoc]

end Fields

/-! ## Natural numbers -/

section Natural

/-- A small number is converted exactly and then multiplied by one. -/
theorem roundsTo_ofNat_small {n : ℕ} (hsmall : n < 2 ^ 53) (one : Float)
    (hone : one.isFinite = true) (hvalue : value one = 1) :
    RoundsTo n (.ofModel (.pack (UnpackedFloat.ofNat .binary64 n)) * one) := by
  have hrounded := normalize_spec n 0 .positive
  rw [zpow_zero, mul_one, Int.cast_natCast] at hrounded
  have hrepresentable : Representable n := by
    refine representable_intCast (n := n) ?_
    rw [Nat.abs_cast]
    exact_mod_cast hsmall.le
  have hle : |(n : ℚ)| ≤ n := by rw [Nat.abs_cast]
  have hlarge : (n : ℚ) < 2 ^ (1024 : ℤ) := by
    have hn : (n : ℚ) < 2 ^ (53 : ℤ) := by exact_mod_cast hsmall
    exact hn.trans_le (two_zpow_le (by decide))
  obtain ⟨hfinite, hnearest⟩ :=
    (roundsTo_pack hrounded).nearest hrepresentable hle hlarge
  have hexact := hnearest.eq_self hrepresentable
  have hproduct := roundsTo_mul hfinite hone
  rw [hexact, hvalue, mul_one] at hproduct
  exact hproduct

/-- A large number is shifted by 53 bits and rounded. -/
theorem roundsTo_ofNat_large {n : ℕ} (hlarge : 2 ^ 53 ≤ n) :
    RoundsTo n
      (.ofModel (.pack (UnpackedFloat.ofScientific .binary64 n 0))) := by
  have hexact : UnpackedFloat.ofScientific .binary64 n 0 =
      roundWithAccuracy .binary64 .positive (n * 2 ^ 53) (-53) .exact := by
    have hbound : (0 : ℤ) ≤ 2 ^ Format.binary64.exponentBits := by decide
    rw [UnpackedFloat.ofScientific, dif_neg (by omega), if_neg (by omega),
      if_neg (by omega), if_pos (by decide), UnpackedFloat.mul,
      Nat.shiftLeft_eq]
    show roundWithAccuracy .binary64 .positive (n * 2 ^ 53 * 1) (-53 + 0)
      .exact = _
    rw [Nat.mul_one, Int.add_zero]
  have hbits : 52 ≤ (n * 2 ^ 53).log2 :=
    le_log2_mul (by omega) (Nat.two_pow_pos 53)
  have hrounded := roundWithAccuracy_spec (e := -53)
    (approximates_exact (n * 2 ^ 53)) (.inl hbits) .positive
  have hvalue : factor .positive * ((n * 2 ^ 53 : ℕ) : ℚ) * 2 ^ (-53 : ℤ) =
      n := by
    rw [factor, one_mul, Nat.cast_mul, mul_assoc]
    norm_num
  rw [hvalue] at hrounded
  rw [hexact]
  exact roundsTo_pack hrounded

/-- The first power of ten in core's table. -/
theorem value_powerZero :
    Float.exactlyRepresentablePowersOfTen[0].isFinite = true ∧
      value Float.exactlyRepresentablePowersOfTen[0] = 1 := by
  have hunpack : Float.exactlyRepresentablePowersOfTen[0].toModel.unpack =
      .finite .positive (2 ^ 52) (-52) (by decide) := by rfl
  constructor
  · show Float.exactlyRepresentablePowersOfTen[0].toModel.unpack.isFinite = true
    rw [hunpack]
    rfl
  · rw [value, hunpack, valueOf_finite, factor, one_mul]
    norm_num

/-- The double of a natural number is that number, rounded. -/
theorem roundsTo_ofNat (n : ℕ) : RoundsTo n (Float.ofNat n) := by
  have hofNat : Float.ofNat n = Float.ofScientific n false 0 := rfl
  rw [hofNat, Float.ofScientific]
  split
  · next hsmall =>
      have hnat : n.toUInt64.toNat = n := by
        rw [Nat.toUInt64, UInt64.toNat_ofNat']
        exact Nat.mod_eq_of_lt (by omega)
      have hfloat : n.toUInt64.toFloat =
          .ofModel (.pack (UnpackedFloat.ofNat .binary64 n)) := by
        show Float.ofModel (.pack (UnpackedFloat.ofNat .binary64
          n.toUInt64.toNat)) = _
        rw [hnat]
      simp only [hfloat, Bool.false_eq_true, if_false]
      exact roundsTo_ofNat_small hsmall.1 _ value_powerZero.1 value_powerZero.2
  · next hlarge =>
      have hlarge : 2 ^ 53 ≤ n := by
        by_contra hsmall
        exact hlarge ⟨by omega, by decide⟩
      exact roundsTo_ofNat_large hlarge

/-- A natural number that a double stands for is converted to that double. -/
theorem value_ofNat {n : ℕ} (hn : Representable n)
    (hlarge : (n : ℚ) < 2 ^ (1024 : ℤ)) :
    (Float.ofNat n).isFinite = true ∧ value (Float.ofNat n) = n := by
  obtain ⟨hfinite, hnearest⟩ :=
    (roundsTo_ofNat n).nearest hn (by rw [Nat.abs_cast]) hlarge
  exact ⟨hfinite, hnearest.eq_self hn⟩

/-- A natural number of at most 53 bits is converted without rounding. -/
theorem value_ofNat_of_le {n : ℕ} (hn : n ≤ 2 ^ 53) :
    (Float.ofNat n).isFinite = true ∧ value (Float.ofNat n) = n := by
  have hsmall : (n : ℚ) ≤ 2 ^ (53 : ℤ) := by exact_mod_cast hn
  refine value_ofNat ?_ (hsmall.trans_lt (two_zpow_lt (by decide)))
  have h := representable_intCast (n := n) (by rw [Nat.abs_cast]; exact_mod_cast hn)
  exact_mod_cast h

/-- A double that is at least `n` is at least the double of `n`. -/
theorem ofNat_le_of_le_value {n : ℕ} {x : Float} (hx : x.isFinite = true)
    (h : (n : ℚ) ≤ value x) : Float.ofNat n ≤ x := by
  have hle : |(n : ℚ)| ≤ value x := by rwa [Nat.abs_cast]
  have hlarge : value x < 2 ^ (1024 : ℤ) :=
    (le_abs_self _).trans_lt (abs_value_lt x)
  obtain ⟨hfinite, hnearest⟩ :=
    (roundsTo_ofNat n).nearest (representable_value x) hle hlarge
  rw [le_iff_value hfinite hx]
  exact hnearest.le_of_le (representable_value x) h

theorem ofNat_le_of_le_wholePart {n : ℕ} {x : Float} (hn : 0 < n)
    (h : n ≤ (wholePart x).toNat) : Float.ofNat n ≤ x := by
  unfold wholePart at h
  split at h
  · next b hb =>
      have hsign : b.negative = false := by
        by_contra hneg
        rw [Bool.not_eq_false] at hneg
        rw [Binary.wholePart, hneg, if_pos rfl] at h
        generalize b.numerator / b.denominator = q at h
        omega
      rw [Binary.wholePart, hsign, if_neg Bool.false_ne_true,
        Int.toNat_natCast, Nat.le_div_iff_mul_le b.denominator_pos] at h
      have hvalue : value x * b.denominator = b.numerator := by
        rw [value_mul_denominator hb, signOf, hsign]
        exact one_mul _
      have hdenominator : (0 : ℚ) < b.denominator := by
        exact_mod_cast b.denominator_pos
      refine ofNat_le_of_le_value (isFinite_iff_ofFloat?.2 ⟨b, hb⟩) ?_
      rw [← mul_le_mul_iff_of_pos_right hdenominator, hvalue]
      exact_mod_cast h
  · omega

/-- An integer that is neither below zero nor as large as the double of `n` is
below `n`. -/
theorem wholePart_lt {x : Float} {n : ℕ} (hx : ¬ x < 0)
    (hn : ¬ Float.ofNat n ≤ x) (hwhole : isWhole x = true) :
    (wholePart x).toNat < n := by
  by_contra hle
  have hle := Nat.le_of_not_lt hle
  rcases Nat.eq_zero_or_pos n with rfl | hpos
  · have hnumber : x.isNaN = false := by
      unfold isWhole at hwhole
      split at hwhole
      · next hb => exact isNaN_of_isFinite (isFinite_iff_ofFloat?.2 ⟨_, hb⟩)
      · cases hwhole
    exact hx (lt_of_not_le rfl hnumber hn)
  · exact hn (ofNat_le_of_le_wholePart hpos hle)

end Natural

end MapStyle.Number
