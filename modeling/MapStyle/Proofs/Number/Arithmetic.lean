import MapStyle.Number.Constant
import MapStyle.Proofs.Number.Rank
import MapStyle.Proofs.Number.Rounding

/-!
# Arithmetic on doubles as arithmetic with rounding

The value of a finite double is a representable number (`representable_value`).
A sum, a difference, a product or a quotient of finite doubles is the double
nearest to that of their values, if there is one (`roundsTo_add`,
`roundsTo_sub`, `roundsTo_mul`, `roundsTo_div`), and comparing finite doubles is
comparing their values (`lt_iff_value`). With `RoundsTo.nearest` a bound on an
exact result becomes one on the double that is computed.
-/

namespace MapStyle.Number

open Float.Model Float.Model.UnpackedFloat

/-! ## Packing -/

section Pack

variable {s : Sign} {m : ℕ} {e : ℤ} {hm : 0 < m}

/-- The exponent is packed with an offset. -/
theorem biased_eq {b : ℕ} (h : e + 1075 = b) :
    (e + (Format.binary64.exponentBias : ℤ) +
      (Format.binary64.mantissaBitsWithoutImplicit : ℤ)).toNat = b := by
  show (e + ((1023 : ℕ) : ℤ) + ((52 : ℕ) : ℤ)).toNat = b
  omega

theorem unpack_pack_normal (hlow : 2 ^ 52 ≤ m) (hhigh : m < 2 ^ 53)
    (he : -1074 ≤ e) (he' : e ≤ 971) :
    (Float.Model.pack (.finite s m e hm)).unpack = .finite s m e hm := by
  have hlog : m.log2 = 52 := (Nat.log2_eq_iff (by omega)).2 ⟨hlow, hhigh⟩
  obtain ⟨b, hb⟩ : ∃ b : ℕ, e + 1075 = b := ⟨(e + 1075).toNat, by omega⟩
  have hpack : UnpackedFloat.pack .binary64 (.finite s m e hm) =
      packComponents .binary64 s (BitVec.ofNat _ b) (BitVec.ofNat _ m) := by
    rw [UnpackedFloat.pack]
    simp only [biased_eq hb]
    rw [if_neg, if_pos]
    · rw [hlog]
      rfl
    · show ¬ 2 ^ 11 ≤ b + 1
      omega
  have hexponent : (BitVec.ofNat 11 b).toNat = b := by
    rw [BitVec.toNat_ofNat]
    exact Nat.mod_eq_of_lt (by omega)
  have hmantissa : (1#1 ++ BitVec.ofNat 52 m).toNat = m := by
    rw [BitVec.toNat_append, ← Nat.shiftLeft_add_eq_or_of_lt (BitVec.isLt _),
      BitVec.toNat_ofNat]
    show 1 <<< 52 + m % 2 ^ 52 = m
    omega
  show UnpackedFloat.unpack .binary64 (UnpackedFloat.pack .binary64 _) = _
  rw [hpack, UnpackedFloat.unpack]
  simp only [unpackMantissa_packComponents, unpackExponent_packComponents,
    unpackSign_packComponents, Sign.ofBitVec_toBitVec]
  rw [if_neg, if_neg]
  · simp only [hmantissa, hexponent]
    congr 1
    show (b : ℤ) - ((1023 : ℕ) + (52 : ℕ)) = e
    omega
  · rw [← BitVec.toNat_inj, hexponent]
    show b ≠ 0
    omega
  · rw [← BitVec.toNat_inj, hexponent]
    show b ≠ 2047
    omega

theorem unpack_pack_subnormal (hhigh : m < 2 ^ 52) :
    (Float.Model.pack (.finite s m (-1074) hm)).unpack =
      .finite s m (-1074) hm := by
  have hlog : m.log2 + 1 ≠ 53 := by
    have := (Nat.log2_lt (Nat.ne_of_gt hm)).2 hhigh
    omega
  have hpack : UnpackedFloat.pack .binary64 (.finite s m (-1074) hm) =
      packComponents .binary64 s 0#11 (BitVec.ofNat 52 m) := by
    rw [UnpackedFloat.pack]
    simp only [biased_eq (e := -1074) (b := 1) rfl]
    rw [if_neg (by decide)]
    exact if_neg hlog
  have hmantissa : (BitVec.ofNat 52 m).toNat = m := by
    rw [BitVec.toNat_ofNat]
    exact Nat.mod_eq_of_lt hhigh
  have hne : BitVec.ofNat 52 m ≠ 0#52 := by
    rw [Ne, ← BitVec.toNat_inj, hmantissa]
    exact Nat.ne_of_gt hm
  show UnpackedFloat.unpack .binary64 (UnpackedFloat.pack .binary64 _) = _
  rw [hpack, UnpackedFloat.unpack]
  simp only [unpackMantissa_packComponents, unpackExponent_packComponents,
    unpackSign_packComponents, Sign.ofBitVec_toBitVec]
  rw [if_neg (by decide), if_pos trivial, dif_neg hne]
  simp only [hmantissa]
  rfl

/-- What is too large is packed as an infinity. -/
theorem unpack_pack_large (he : 972 ≤ e) :
    (Float.Model.pack (.finite s m e hm)).unpack = .infinity s := by
  obtain ⟨b, hb⟩ : ∃ b : ℕ, e + 1075 = b := ⟨(e + 1075).toNat, by omega⟩
  have hpack : UnpackedFloat.pack .binary64 (.finite s m e hm) =
      packedInfinity .binary64 s := by
    rw [UnpackedFloat.pack]
    simp only [biased_eq hb]
    rw [if_pos]
    show 2 ^ 11 ≤ b + 1
    omega
  show UnpackedFloat.unpack .binary64 (UnpackedFloat.pack .binary64 _) = _
  rw [hpack]
  cases s <;> rfl

theorem unpack_pack_finite (hhigh : m < 2 ^ 53) (he : -1074 ≤ e)
    (he' : e ≤ 971) (hnormal : e = -1074 ∨ 2 ^ 52 ≤ m) :
    (Float.Model.pack (.finite s m e hm)).unpack = .finite s m e hm := by
  by_cases hbits : 2 ^ 52 ≤ m
  · exact unpack_pack_normal hbits hhigh he he'
  · obtain rfl : e = -1074 := hnormal.resolve_right hbits
    exact unpack_pack_subnormal (by omega)

end Pack

/-- Packing keeps what is written with as many bits as there are, if it is not
too large. -/
theorem unpack_pack {u : UnpackedFloat} (hu : Canonical u)
    (hfinite : u.isFinite = true) :
    (Float.Model.pack u).unpack = u ∨
      ((∃ s, (Float.Model.pack u).unpack = .infinity s) ∧
        (2 : ℚ) ^ (1024 : ℤ) ≤ |valueOf u|) := by
  cases u with
  | infinity | notANumber => cases hfinite
  | zero s => cases s <;> exact .inl rfl
  | finite s m e hm =>
      obtain ⟨hhigh, hlow, hnormal⟩ := hu
      by_cases hlarge : 972 ≤ e
      · refine .inr ⟨⟨s, unpack_pack_large hlarge⟩, ?_⟩
        have hbits : (2 : ℚ) ^ (52 : ℤ) ≤ m := by
          exact_mod_cast hnormal.resolve_left (by omega)
        calc (2 : ℚ) ^ (1024 : ℤ) = 2 ^ (52 : ℤ) * 2 ^ (972 : ℤ) :=
              two_zpow_add 52 972
          _ ≤ m * 2 ^ e :=
              mul_le_mul hbits (two_zpow_le hlarge) (two_zpow_pos _).le
                (Nat.cast_nonneg m)
          _ = |valueOf (.finite s m e hm)| := by
              rw [valueOf, abs_mul, abs_mul, abs_factor, one_mul, Nat.abs_cast,
                abs_of_pos (two_zpow_pos e)]
      · exact .inl (unpack_pack_finite hhigh hlow (by omega) hnormal)

/-! ## Values -/

/-- The number that a finite double stands for. -/
def value (x : Float) : ℚ :=
  valueOf x.toModel.unpack

variable {x y : Float} {v w z : ℚ}

/-- A double has 53 bits, and all of them count unless the unit is the
smallest. -/
theorem shape_of_unpack {s : Sign} {m : ℕ} {e : ℤ} {hm : 0 < m}
    (h : x.toModel.unpack = .finite s m e hm) :
    m < 2 ^ 53 ∧ -1074 ≤ e ∧ e ≤ 971 ∧ (e = -1074 ∨ 2 ^ 52 ≤ m) := by
  have hmantissa : (@unpackMantissa .binary64
      x.toModel.toBits.toBitVec).toNat < 2 ^ 52 := BitVec.isLt _
  have hexponent : (@unpackExponent .binary64
      x.toModel.toBits.toBitVec).toNat < 2 ^ 11 := BitVec.isLt _
  have hbias : ((Format.binary64.exponentBias : ℤ) + ((52 : ℕ) : ℤ)) = 1075 :=
    rfl
  unfold Float.Model.unpack UnpackedFloat.unpack at h
  simp only [hbias] at h
  split at h
  · split at h <;> cases h
  · next hmax =>
      have hmax : (@unpackExponent .binary64
          x.toModel.toBits.toBitVec).toNat ≠ 2047 := fun heq =>
        hmax (BitVec.eq_of_toNat_eq heq)
      split at h
      · next hzero =>
          split at h
          · cases h
          · cases h
            rw [hzero]
            refine ⟨by omega, ?_, ?_, .inl ?_⟩
            all_goals decide
      · next hzero =>
          have hzero : (@unpackExponent .binary64
              x.toModel.toBits.toBitVec).toNat ≠ 0 := fun heq =>
            hzero (BitVec.eq_of_toNat_eq heq)
          cases h
          have hnat : (1#1 ++ @unpackMantissa .binary64
              x.toModel.toBits.toBitVec).toNat =
                2 ^ 52 + (@unpackMantissa .binary64
                  x.toModel.toBits.toBitVec).toNat := by
            rw [BitVec.toNat_append,
              ← Nat.shiftLeft_add_eq_or_of_lt hmantissa]
            rfl
          rw [hnat]
          refine ⟨by omega, by omega, by omega, .inr (by omega)⟩

theorem canonical_unpack (x : Float) : Canonical x.toModel.unpack := by
  cases h : x.toModel.unpack with
  | finite s m e hm =>
      obtain ⟨hhigh, hlow, -, hnormal⟩ := shape_of_unpack h
      exact ⟨hhigh, hlow, hnormal⟩
  | _ => trivial

theorem abs_value_lt (x : Float) : |value x| < 2 ^ (1024 : ℤ) := by
  unfold value
  cases h : x.toModel.unpack with
  | finite s m e hm =>
      obtain ⟨hhigh, -, hmax, -⟩ := shape_of_unpack h
      have hm' : (m : ℚ) < 2 ^ (53 : ℤ) := by exact_mod_cast hhigh
      rw [valueOf, abs_mul, abs_mul, abs_factor, one_mul, Nat.abs_cast,
        abs_of_pos (two_zpow_pos e)]
      calc (m : ℚ) * 2 ^ e < 2 ^ (53 : ℤ) * 2 ^ e :=
            mul_lt_mul_of_pos_right hm' (two_zpow_pos e)
        _ ≤ 2 ^ (53 : ℤ) * 2 ^ (971 : ℤ) :=
            mul_le_mul_of_nonneg_left (two_zpow_le hmax) (two_zpow_pos _).le
        _ = 2 ^ (1024 : ℤ) := (two_zpow_add 53 971).symm
  | _ =>
      show |(0 : ℚ)| < _
      rw [abs_zero]
      exact two_zpow_pos _

theorem Canonical.representable {u : UnpackedFloat} (hu : Canonical u) :
    Representable (valueOf u) := by
  cases u with
  | finite s m e hm =>
      obtain ⟨hhigh, hlow, -⟩ := hu
      refine ⟨s.apply m, e, ?_, hlow, ?_⟩
      · have habs : |s.apply m| = m := by
          cases s <;> simp [Sign.apply]
        rw [habs]
        exact_mod_cast hhigh.le
      · cases s <;> simp [valueOf, factor, Sign.apply]
  | _ => exact representable_intCast (n := 0) (by norm_num)

theorem unpack_of_value_eq_zero (hx : x.isFinite = true) (h : value x = 0) :
    ∃ s, x.toModel.unpack = .zero s := by
  have hx : x.toModel.unpack.isFinite = true := hx
  rw [value] at h
  cases hu : x.toModel.unpack with
  | zero s => exact ⟨s, rfl⟩
  | infinity | notANumber =>
      rw [hu] at hx
      cases hx
  | finite s m e hm =>
      have hm : (m : ℚ) ≠ 0 := by exact_mod_cast Nat.ne_of_gt hm
      rw [hu, valueOf_finite] at h
      exact absurd h (mul_ne_zero (mul_ne_zero (factor_ne_zero s) hm)
        (two_zpow_pos e).ne')

theorem representable_value (x : Float) : Representable (value x) :=
  (canonical_unpack x).representable

/-- Whether a double is what a number is rounded to. The number is exceeded by
all finite doubles if this is an infinity. -/
def RoundsTo (v : ℚ) (x : Float) : Prop :=
  ∃ q, IsNearest v q ∧ ((x.isFinite = true ∧ value x = q) ∨
    (x.isInf = true ∧ 2 ^ (1024 : ℤ) ≤ |q|))

theorem roundsTo_pack {u : UnpackedFloat} (h : Rounded v u) :
    RoundsTo v (.ofModel (.pack u)) := by
  obtain ⟨hfinite, hcanonical, hnearest⟩ := h
  refine ⟨valueOf u, hnearest, ?_⟩
  rcases unpack_pack hcanonical hfinite with hkept | ⟨⟨s, hinf⟩, hlarge⟩
  · refine .inl ⟨?_, ?_⟩
    · show (Float.Model.pack u).unpack.isFinite = true
      rw [hkept, hfinite]
    · show valueOf (Float.Model.pack u).unpack = _
      rw [hkept]
  · refine .inr ⟨?_, hlarge⟩
    show (Float.Model.pack u).unpack.isInf = true
    rw [hinf]
    rfl

/-- A number that is not too large is rounded to a finite double. -/
theorem RoundsTo.nearest (h : RoundsTo v x) (hz : Representable z)
    (hle : |v| ≤ z) (hlarge : z < 2 ^ (1024 : ℤ)) :
    x.isFinite = true ∧ IsNearest v (value x) := by
  obtain ⟨q, hnearest, ⟨hfinite, rfl⟩ | ⟨-, hq⟩⟩ := h
  · exact ⟨hfinite, hnearest⟩
  · have := hnearest.abs_le_of_abs_le hz hle
    linarith

/-- A finite double is nearest to what is rounded to it. -/
theorem RoundsTo.nearest_of_isFinite (h : RoundsTo v x)
    (hx : x.isFinite = true) : IsNearest v (value x) := by
  obtain ⟨q, hnearest, ⟨-, rfl⟩ | ⟨hinf, -⟩⟩ := h
  · exact hnearest
  · have hx : x.toModel.unpack.isFinite = true := hx
    have hinf : x.toModel.unpack.isInf = true := hinf
    cases h : x.toModel.unpack with
    | infinity | notANumber =>
        rw [h] at hx
        cases hx
    | zero | finite =>
        rw [h] at hinf
        cases hinf

/-! ## Operations -/

theorem decreaseExponent_value (s : Sign) (m : ℕ) {e t : ℤ} (h : t ≤ e) :
    ((s.apply (decreaseExponent m e t).1 : ℤ) : ℚ) * 2 ^ t =
      factor s * m * 2 ^ e := by
  obtain ⟨k, rfl⟩ := Int.le.dest h
  have hk : (t + k - t).toNat = k := by omega
  have hsigned (n : ℕ) : ((s.apply n : ℤ) : ℚ) = factor s * n := by
    cases s <;> simp [factor, Sign.apply]
  rw [decreaseExponent, hk, hsigned, Nat.shiftLeft_eq, two_zpow_add,
    zpow_natCast]
  push_cast
  ring

theorem rounded_self {u : UnpackedFloat} (hfinite : u.isFinite = true)
    (hu : Canonical u) : Rounded (valueOf u) u :=
  ⟨hfinite, hu, isNearest_self hu.representable⟩

section Operations

variable {a b : UnpackedFloat}

theorem rounded_add (ha : a.isFinite = true) (hb : b.isFinite = true)
    (ha' : Canonical a) (hb' : Canonical b) :
    Rounded (valueOf a + valueOf b) (UnpackedFloat.add .binary64 a b) := by
  cases a with
  | infinity | notANumber => cases ha
  | zero s =>
      rw [valueOf_zero, zero_add]
      cases b with
      | infinity | notANumber => cases hb
      | zero t => cases s <;> cases t <;> exact rounded_self rfl trivial
      | finite t n f hn => exact rounded_self hb hb'
  | finite s m e hm =>
      cases b with
      | infinity | notANumber => cases hb
      | zero t =>
          rw [valueOf_zero, add_zero]
          exact rounded_self ha ha'
      | finite t n f hn =>
          have hspec := normalize_spec
            (s.apply (decreaseExponent m e (min e f)).1 +
              t.apply (decreaseExponent n f (min e f)).1) (min e f) .positive
          rw [Int.cast_add, add_mul, decreaseExponent_value s m (min_le_left ..),
            decreaseExponent_value t n (min_le_right ..)] at hspec
          exact hspec

theorem rounded_sub (ha : a.isFinite = true) (hb : b.isFinite = true)
    (ha' : Canonical a) (hb' : Canonical b) :
    Rounded (valueOf a - valueOf b) (UnpackedFloat.sub .binary64 a b) := by
  cases a with
  | infinity | notANumber => cases ha
  | zero s =>
      rw [valueOf_zero, zero_sub]
      cases b with
      | infinity | notANumber => cases hb
      | zero t =>
          rw [valueOf_zero, neg_zero]
          cases s <;> cases t <;> exact rounded_self rfl trivial
      | finite t n f hn =>
          have hneg : valueOf (.finite (-t) n f hn) =
              -valueOf (.finite t n f hn) := by
            rw [valueOf_finite, valueOf_finite, factor_neg, neg_mul, neg_mul]
          rw [← hneg]
          exact rounded_self rfl hb'
  | finite s m e hm =>
      cases b with
      | infinity | notANumber => cases hb
      | zero t =>
          rw [valueOf_zero, sub_zero]
          exact rounded_self ha ha'
      | finite t n f hn =>
          have hspec := normalize_spec
            (s.apply (decreaseExponent m e (min e f)).1 -
              t.apply (decreaseExponent n f (min e f)).1) (min e f) .positive
          rw [Int.cast_sub, sub_mul, decreaseExponent_value s m (min_le_left ..),
            decreaseExponent_value t n (min_le_right ..)] at hspec
          exact hspec

theorem le_log2_mul {m n : ℕ} (hm : 2 ^ 52 ≤ m) (hn : 0 < n) :
    52 ≤ (m * n).log2 := by
  rw [Nat.le_log2 (by positivity)]
  exact hm.trans (Nat.le_mul_of_pos_right m hn)

theorem rounded_mul (ha : a.isFinite = true) (hb : b.isFinite = true)
    (ha' : Canonical a) (hb' : Canonical b) :
    Rounded (valueOf a * valueOf b) (UnpackedFloat.mul .binary64 a b) := by
  cases a with
  | infinity | notANumber => cases ha
  | zero s =>
      rw [valueOf_zero, zero_mul]
      cases b with
      | infinity | notANumber => cases hb
      | zero | finite => exact rounded_self rfl trivial
  | finite s m e hm =>
      cases b with
      | infinity | notANumber => cases hb
      | zero t =>
          rw [valueOf_zero, mul_zero]
          exact rounded_self rfl trivial
      | finite t n f hn =>
          obtain ⟨-, he, hm'⟩ := ha'
          obtain ⟨-, hf, hn'⟩ := hb'
          have hbits : 52 ≤ (m * n).log2 ∨ e + f ≤ -1074 := by
            rcases hm' with rfl | hm'
            · rcases hn' with rfl | hn'
              · exact .inr (by decide)
              · rw [Nat.mul_comm]
                exact .inl (le_log2_mul hn' hm)
            · exact .inl (le_log2_mul hm' hn)
          have hspec :=
            roundWithAccuracy_spec (approximates_exact (m * n)) hbits (s * t)
          have hvalue : factor (s * t) * ((m * n : ℕ) : ℚ) * 2 ^ (e + f) =
              factor s * m * 2 ^ e * (factor t * n * 2 ^ f) := by
            rw [factor_mul, two_zpow_add]
            push_cast
            ring
          rw [hvalue] at hspec
          exact hspec

/-- The quotient of the mantissas has bits enough once the first one is
shifted. -/
theorem log2_shifted_div {m n k : ℕ} (hm : 0 < m) (hn : 0 < n)
    (hk : n.log2 + 53 ≤ m.log2 + k) : 52 ≤ (m * 2 ^ k / n).log2 := by
  have hquotient : 2 ^ 52 ≤ m * 2 ^ k / n := by
    rw [Nat.le_div_iff_mul_le hn]
    calc 2 ^ 52 * n ≤ 2 ^ 52 * 2 ^ (n.log2 + 1) :=
          Nat.mul_le_mul_left _ (Nat.le_of_lt Nat.lt_log2_self)
      _ = 2 ^ (n.log2 + 53) := by
          rw [← Nat.pow_add]
          congr 1
          omega
      _ ≤ 2 ^ (m.log2 + k) := Nat.pow_le_pow_right two_pos hk
      _ = 2 ^ m.log2 * 2 ^ k := Nat.pow_add ..
      _ ≤ m * 2 ^ k :=
          Nat.mul_le_mul_right _ (Nat.log2_self_le (Nat.ne_of_gt hm))
  exact (Nat.le_log2 (by omega)).2 hquotient

theorem rounded_div (ha : a.isFinite = true) (hb : b.isFinite = true)
    (hzero : valueOf b ≠ 0) :
    Rounded (valueOf a / valueOf b) (UnpackedFloat.div .binary64 a b) := by
  cases b with
  | infinity | notANumber => cases hb
  | zero t => exact absurd rfl hzero
  | finite t n f hn =>
      cases a with
      | infinity | notANumber => cases ha
      | zero s =>
          rw [valueOf_zero, zero_div]
          exact rounded_self rfl trivial
      | finite s m e hm =>
          obtain ⟨g, hg⟩ : ∃ g, min (e - f) (Format.binary64.targetExponent
              (totalExponent m e - totalExponent n f)) = g := ⟨_, rfl⟩
          obtain ⟨k, hk⟩ := Int.le.dest (hg ▸ min_le_left (e - f) _)
          have htarget : g = min (e - f) (max (m.log2 + 1 + e -
              (n.log2 + 1 + f) - 53) (-1074)) := hg.symm
          have hcore : divCore .binary64 m e n f =
              (m * 2 ^ k / n, g, accuracyOfFraction (m * 2 ^ k % n) n) := by
            have hk' : (e - f - g).toNat = k := by omega
            rw [divCore]
            simp only [hg, hk', Nat.shiftLeft_eq]
          have hbits : 52 ≤ (m * 2 ^ k / n).log2 ∨ g ≤ -1074 := by
            by_cases hmin : g ≤ -1074
            · exact .inr hmin
            · exact .inl (log2_shifted_div hm hn (by omega))
          have hspec := roundWithAccuracy_spec
            (approximates_div (m * 2 ^ k) hn) hbits (s / t)
          have hvalue : factor (s / t) * (((m * 2 ^ k : ℕ) : ℚ) / n) * 2 ^ g =
              factor s * m * 2 ^ e / (factor t * n * 2 ^ f) := by
            have hpow : (2 : ℚ) ^ e = 2 ^ g * 2 ^ k * 2 ^ f := by
              rw [← zpow_natCast, ← two_zpow_add, ← two_zpow_add, hk,
                sub_add_cancel]
            have hn' : (n : ℚ) ≠ 0 := by exact_mod_cast Nat.ne_of_gt hn
            have hf := (two_zpow_pos f).ne'
            have ht := factor_ne_zero t
            rw [factor_div, hpow]
            push_cast
            field_simp
          rw [hvalue] at hspec
          show Rounded _ (roundWithAccuracy .binary64 (s / t)
            (divCore .binary64 m e n f).1 (divCore .binary64 m e n f).2.1
            (divCore .binary64 m e n f).2.2)
          rw [hcore]
          exact hspec

end Operations

theorem roundsTo_add (hx : x.isFinite = true) (hy : y.isFinite = true) :
    RoundsTo (value x + value y) (x + y) :=
  roundsTo_pack (rounded_add hx hy (canonical_unpack x) (canonical_unpack y))

theorem roundsTo_sub (hx : x.isFinite = true) (hy : y.isFinite = true) :
    RoundsTo (value x - value y) (x - y) :=
  roundsTo_pack (rounded_sub hx hy (canonical_unpack x) (canonical_unpack y))

theorem roundsTo_mul (hx : x.isFinite = true) (hy : y.isFinite = true) :
    RoundsTo (value x * value y) (x * y) :=
  roundsTo_pack (rounded_mul hx hy (canonical_unpack x) (canonical_unpack y))

theorem roundsTo_div (hx : x.isFinite = true) (hy : y.isFinite = true)
    (hzero : value y ≠ 0) : RoundsTo (value x / value y) (x / y) :=
  roundsTo_pack (rounded_div hx hy hzero)

/-! ## Infinities -/

theorem unpack_pack_infinity (s : Sign) :
    (Float.Model.pack (.infinity s)).unpack = .infinity s := by
  cases s <;> rfl

theorem unpack_add_infinity {s : Sign} (hx : x.toModel.unpack = .infinity s)
    (hy : y.isFinite = true) : (x + y).toModel.unpack = .infinity s := by
  have hy : y.toModel.unpack.isFinite = true := hy
  show (Float.Model.pack (UnpackedFloat.add .binary64 x.toModel.unpack
    y.toModel.unpack)).unpack = _
  rw [hx]
  cases h : y.toModel.unpack with
  | infinity | notANumber =>
      rw [h] at hy
      cases hy
  | zero | finite => exact unpack_pack_infinity s

theorem unpack_sub_infinity {s : Sign} (hx : x.toModel.unpack = .infinity s)
    (hy : y.isFinite = true) : (x - y).toModel.unpack = .infinity s := by
  have hy : y.toModel.unpack.isFinite = true := hy
  show (Float.Model.pack (UnpackedFloat.sub .binary64 x.toModel.unpack
    y.toModel.unpack)).unpack = _
  rw [hx]
  cases h : y.toModel.unpack with
  | infinity | notANumber =>
      rw [h] at hy
      cases hy
  | zero | finite => exact unpack_pack_infinity s

/-! ## Order -/

/-- Of two numbers with as many bits as there are, exponents decide. -/
theorem magnitude_lt {m n : ℕ} {e f : ℤ} (hm : m < 2 ^ 53)
    (hn : f = -1074 ∨ 2 ^ 52 ≤ n) (he : -1074 ≤ e)
    (h : e < f ∨ (e = f ∧ m < n)) : (m : ℚ) * 2 ^ e < n * 2 ^ f := by
  rcases h with h | ⟨rfl, h⟩
  · have hm' : (m : ℚ) < 2 ^ 53 := by exact_mod_cast hm
    have hn' : (2 : ℚ) ^ 52 ≤ n := by
      exact_mod_cast hn.resolve_left (by omega)
    calc (m : ℚ) * 2 ^ e < 2 ^ 53 * 2 ^ e :=
          mul_lt_mul_of_pos_right hm' (two_zpow_pos e)
      _ ≤ 2 ^ 53 * 2 ^ (f - 1) :=
          mul_le_mul_of_nonneg_left (two_zpow_le (by omega)) (by norm_num)
      _ = 2 ^ 52 * 2 ^ f := by
          rw [zpow_sub₀ two_ne_zero]
          ring
      _ ≤ n * 2 ^ f := mul_le_mul_of_nonneg_right hn' (two_zpow_pos f).le
  · exact mul_lt_mul_of_pos_right (by exact_mod_cast h) (two_zpow_pos e)

theorem placeAt_lt {k k' e e' m m' : ℤ} :
    placeAt k e m < placeAt k' e' m' ↔
      k < k' ∨ (k = k' ∧ (e < e' ∨ (e = e' ∧ m < m'))) := by
  rw [placeAt, placeAt, Prod.Lex.toLex_lt_toLex, Prod.Lex.toLex_lt_toLex]

/-- The places of finite doubles are those of their values. -/
theorem valueOf_lt {a b : UnpackedFloat} (ha : a.isFinite = true)
    (hb : b.isFinite = true) (ha' : Canonical a) (hb' : Canonical b)
    (h : place a < place b) : valueOf a < valueOf b := by
  have hpos {m : ℕ} {e : ℤ} (hm : 0 < m) : (0 : ℚ) < m * 2 ^ e :=
    mul_pos (by exact_mod_cast hm) (two_zpow_pos e)
  cases a with
  | infinity | notANumber => cases ha
  | zero s =>
      cases b with
      | infinity | notANumber => cases hb
      | zero t => exact absurd h (lt_irrefl _)
      | finite t n f hn =>
          have hn' := hpos (e := f) hn
          cases t with
          | negative => exact absurd (placeAt_lt.1 h) (by omega)
          | positive =>
              rw [valueOf_zero, valueOf_finite, factor, one_mul]
              exact hn'
  | finite s m e hm =>
      have hm' := hpos (e := e) hm
      cases b with
      | infinity | notANumber => cases hb
      | zero t =>
          cases s with
          | negative =>
              rw [valueOf_zero, valueOf_finite, factor]
              linarith
          | positive => exact absurd (placeAt_lt.1 h) (by omega)
      | finite t n f hn =>
          have hn' := hpos (e := f) hn
          obtain ⟨hm53, he, hm52⟩ := ha'
          obtain ⟨hn53, hf, hn52⟩ := hb'
          rw [valueOf_finite, valueOf_finite]
          cases s <;> cases t <;> simp only [factor]
          · have h := placeAt_lt.1 h
            have hlt := magnitude_lt hn53 hm52 hf (by omega)
            linarith
          · linarith
          · exact absurd (placeAt_lt.1 h) (by omega)
          · have h := placeAt_lt.1 h
            have hlt := magnitude_lt hm53 hn52 he (by omega)
            linarith

theorem placeAt_inj {k k' e e' m m' : ℤ} :
    placeAt k e m = placeAt k' e' m' ↔ k = k' ∧ e = e' ∧ m = m' := by
  rw [placeAt, placeAt, toLex_inj, Prod.mk.injEq, toLex_inj, Prod.mk.injEq]

theorem valueOf_eq {a b : UnpackedFloat} (ha : a.isFinite = true)
    (hb : b.isFinite = true) (h : place a = place b) :
    valueOf a = valueOf b := by
  cases a with
  | infinity | notANumber => cases ha
  | zero s =>
      cases b with
      | infinity | notANumber => cases hb
      | zero t => rfl
      | finite t n f hn => cases t <;> exact absurd (placeAt_inj.1 h) (by omega)
  | finite s m e hm =>
      cases b with
      | infinity | notANumber => cases hb
      | zero t => cases s <;> exact absurd (placeAt_inj.1 h) (by omega)
      | finite t n f hn =>
          have hsame (hst : s = t) (heq : e = f ∧ m = n) :
              valueOf (.finite s m e hm) = valueOf (.finite t n f hn) := by
            obtain ⟨rfl, rfl⟩ := heq
            subst hst
            rfl
          cases s <;> cases t
          · exact hsame rfl (by have := placeAt_inj.1 h; omega)
          · exact absurd (placeAt_inj.1 h) (by omega)
          · exact absurd (placeAt_inj.1 h) (by omega)
          · exact hsame rfl (by have := placeAt_inj.1 h; omega)

/-- A number other than zero is the value of one double only. -/
theorem eq_of_valueOf_eq {a b : UnpackedFloat} (ha : a.isFinite = true)
    (hb : b.isFinite = true) (ha' : Canonical a) (hb' : Canonical b)
    (h : valueOf a = valueOf b) (hne : valueOf b ≠ 0) : a = b := by
  have hplace : place a = place b := by
    rcases lt_trichotomy (place a) (place b) with hlt | heq | hgt
    · exact absurd h (valueOf_lt ha hb ha' hb' hlt).ne
    · exact heq
    · exact absurd h (valueOf_lt hb ha hb' ha' hgt).ne'
  cases b with
  | infinity | notANumber => cases hb
  | zero t => exact absurd rfl hne
  | finite t n f hn =>
      cases a with
      | infinity | notANumber => cases ha
      | zero s => exact absurd h.symm hne
      | finite s m e hm =>
          have hsame (hst : s = t) (heq : e = f ∧ m = n) :
              UnpackedFloat.finite s m e hm = .finite t n f hn := by
            obtain ⟨rfl, rfl⟩ := heq
            subst hst
            rfl
          cases s <;> cases t
          · exact hsame rfl (by have := placeAt_inj.1 hplace; omega)
          · exact absurd (placeAt_inj.1 hplace) (by omega)
          · exact absurd (placeAt_inj.1 hplace) (by omega)
          · exact hsame rfl (by have := placeAt_inj.1 hplace; omega)

theorem isNaN_of_isFinite (h : x.isFinite = true) : x.isNaN = false := by
  show x.toModel.unpack.isNaN = false
  have h : x.toModel.unpack.isFinite = true := h
  cases hx : x.toModel.unpack with
  | notANumber =>
      rw [hx] at h
      cases h
  | _ => rfl

theorem lt_iff_value (hx : x.isFinite = true) (hy : y.isFinite = true) :
    x < y ↔ value x < value y := by
  rw [lt_iff_order, order,
    compare_eq_place (isNaN_of_isFinite hx) (isNaN_of_isFinite hy),
    Option.some_inj, compare_lt_iff_lt]
  refine ⟨valueOf_lt hx hy (canonical_unpack x) (canonical_unpack y), ?_⟩
  intro hvalue
  rcases lt_trichotomy (place x.toModel.unpack) (place y.toModel.unpack) with
    h | h | h
  · exact h
  · exact absurd (valueOf_eq hx hy h) hvalue.ne
  · exact absurd (valueOf_lt hy hx (canonical_unpack y) (canonical_unpack x) h)
      hvalue.le.not_gt

theorem le_iff_value (hx : x.isFinite = true) (hy : y.isFinite = true) :
    x ≤ y ↔ value x ≤ value y := by
  have hx' := isNaN_of_isFinite hx
  have hy' := isNaN_of_isFinite hy
  rw [← not_lt, ← lt_iff_value hy hx]
  exact ⟨Number.not_lt_of_le, fun h => by_contra fun hle =>
    h (lt_of_not_le hx' hy' hle)⟩

theorem unpack_of_isNaN (hx : x.isNaN = true) :
    x.toModel.unpack = .notANumber :=
  isNaN_iff.1 hx

theorem isFinite_or (x : Float) : x.isFinite = true ∨
    (∃ s, x.toModel.unpack = .infinity s) ∨ x.isNaN = true := by
  show x.toModel.unpack.isFinite = true ∨ _ ∨ x.toModel.unpack.isNaN = true
  cases x.toModel.unpack with
  | infinity s => exact .inr (.inl ⟨s, rfl⟩)
  | notANumber => exact .inr (.inr rfl)
  | zero | finite => exact .inl rfl

theorem not_isFinite_of_infinity {s : Sign}
    (h : x.toModel.unpack = .infinity s) : ¬ x.isFinite = true := by
  show ¬ x.toModel.unpack.isFinite = true
  rw [h]
  exact Bool.false_ne_true

theorem isNaN_of_infinity {s : Sign} (h : x.toModel.unpack = .infinity s) :
    x.isNaN = false := by
  show x.toModel.unpack.isNaN = false
  rw [h]
  rfl

/-- An infinity compares by its sign to a finite double. -/
theorem order_infinity {s : Sign} (hx : x.isFinite = true)
    (hy : y.toModel.unpack = .infinity s) :
    (order x y = some .lt ↔ s = .positive) ∧
      (order x y = some .gt ↔ s = .negative) := by
  have hx : x.toModel.unpack.isFinite = true := hx
  rw [order, hy]
  cases h : x.toModel.unpack with
  | infinity | notANumber =>
      rw [h] at hx
      cases hx
  | zero t | finite t =>
      cases s <;> cases t <;> simp [UnpackedFloat.compare]

theorem unpack_neg_infinity :
    (-infinity).toModel.unpack = .infinity .negative := by
  rfl

/-- Every number is at least negative infinity. -/
theorem neg_infinity_le (hx : x.isNaN = false) : -infinity ≤ x := by
  rcases isFinite_or x with hfinite | ⟨s, hs⟩ | hnan
  · have hgt := (order_infinity hfinite unpack_neg_infinity).2.2 rfl
    exact Number.le_of_lt ((gt_iff_order _ _).2 hgt)
  · rw [le_iff_order, order, unpack_neg_infinity, hs]
    cases s with
    | negative => exact .inr rfl
    | positive => exact .inl rfl
  · rw [hnan] at hx
    cases hx

/-- What is larger than a finite double. -/
theorem gt_iff_value (hy : y.isFinite = true) :
    y < x ↔ x.toModel.unpack = .infinity .positive ∨
      (x.isFinite = true ∧ value y < value x) := by
  rcases isFinite_or x with hx | ⟨s, hs⟩ | hx
  · rw [lt_iff_value hy hx, or_iff_right, and_iff_right hx]
    exact fun hinf => not_isFinite_of_infinity hinf hx
  · have hnot := not_isFinite_of_infinity hs
    rw [lt_iff_order, (order_infinity hy hs).1, hs]
    simp [hnot]
  · rw [lt_iff_order, order_of_isNaN (.inr hx)]
    refine iff_of_false nofun ?_
    rintro (hinf | ⟨hfinite, -⟩)
    · rw [isNaN_of_infinity hinf] at hx
      cases hx
    · rw [isNaN_of_isFinite hfinite] at hx
      cases hx

/-- What is smaller than a finite double. -/
theorem lt_iff_value' (hy : y.isFinite = true) :
    x < y ↔ x.toModel.unpack = .infinity .negative ∨
      (x.isFinite = true ∧ value x < value y) := by
  rcases isFinite_or x with hx | ⟨s, hs⟩ | hx
  · rw [lt_iff_value hx hy, or_iff_right, and_iff_right hx]
    exact fun hinf => not_isFinite_of_infinity hinf hx
  · have hnot := not_isFinite_of_infinity hs
    rw [gt_iff_order, (order_infinity hy hs).2, hs]
    simp [hnot]
  · rw [lt_iff_order, order_of_isNaN (.inl hx)]
    refine iff_of_false nofun ?_
    rintro (hinf | ⟨hfinite, -⟩)
    · rw [isNaN_of_infinity hinf] at hx
      cases hx
    · rw [isNaN_of_isFinite hfinite] at hx
      cases hx

/-! ## Signs -/

theorem unpack_neg (x : Float) :
    (-x).toModel.unpack = x.toModel.unpack.neg := by
  show (Float.Model.pack x.toModel.unpack.neg).unpack = _
  cases h : x.toModel.unpack with
  | notANumber => rfl
  | infinity s | zero s => cases s <;> rfl
  | finite s m e hm =>
      obtain ⟨hhigh, hlow, hmax, hnormal⟩ := shape_of_unpack h
      exact unpack_pack_finite hhigh hlow hmax hnormal

theorem unpack_abs (x : Float) :
    x.abs.toModel.unpack = x.toModel.unpack.abs := by
  show (Float.Model.pack x.toModel.unpack.abs).unpack = _
  cases h : x.toModel.unpack with
  | notANumber => rfl
  | infinity s | zero s => cases s <;> rfl
  | finite s m e hm =>
      obtain ⟨hhigh, hlow, hmax, hnormal⟩ := shape_of_unpack h
      exact unpack_pack_finite hhigh hlow hmax hnormal

theorem value_neg (x : Float) : value (-x) = -value x := by
  rw [value, value, unpack_neg]
  cases x.toModel.unpack with
  | finite s m e hm =>
      rw [UnpackedFloat.neg, valueOf_finite, valueOf_finite, factor_neg,
        neg_mul, neg_mul]
  | _ => exact neg_zero.symm

theorem value_abs (x : Float) : value x.abs = |value x| := by
  rw [value, value, unpack_abs]
  cases x.toModel.unpack with
  | finite s m e hm =>
      rw [UnpackedFloat.abs, valueOf_finite, valueOf_finite, factor, one_mul,
        abs_mul, abs_mul, abs_factor, one_mul, Nat.abs_cast,
        abs_of_pos (two_zpow_pos e)]
  | _ => exact abs_zero.symm

theorem isFinite_neg (x : Float) : (-x).isFinite = x.isFinite := by
  show (-x).toModel.unpack.isFinite = x.toModel.unpack.isFinite
  rw [unpack_neg]
  cases x.toModel.unpack <;> rfl

theorem isFinite_abs (x : Float) : x.abs.isFinite = x.isFinite := by
  show x.abs.toModel.unpack.isFinite = x.toModel.unpack.isFinite
  rw [unpack_abs]
  cases x.toModel.unpack <;> rfl

theorem unpack_abs_infinity : x.abs.toModel.unpack = .infinity .positive ↔
    x.toModel.unpack = .infinity .positive ∨
      x.toModel.unpack = .infinity .negative := by
  rw [unpack_abs]
  cases x.toModel.unpack with
  | infinity s => cases s <;> simp [UnpackedFloat.abs]
  | _ => simp [UnpackedFloat.abs]

theorem lt_abs_iff (hy : y.isFinite = true) :
    y < x.abs ↔ y < x ∨ x < -y := by
  have hy' : (-y).isFinite = true := by rw [isFinite_neg, hy]
  rw [gt_iff_value hy, gt_iff_value hy, lt_iff_value' hy', isFinite_abs,
    value_abs, value_neg, unpack_abs_infinity, lt_abs, lt_neg]
  tauto

end MapStyle.Number
