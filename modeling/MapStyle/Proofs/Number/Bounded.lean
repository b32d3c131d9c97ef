import MapStyle.Proofs.Number.Arithmetic

/-!
# Doubles of a limited size

`Bounded n x` says that `x` is at most `2 ^ n` in size. NaN counts as bounded,
as no comparison finds it to be larger. The operations keep such bounds as those
on numbers do, because rounding does not pass a power of two. What is not finite,
on the other hand, stays so in sums and products, and a number divided by it is
not positive (`isFinite_add`, `isFinite_mul`, `not_pos_div`).
-/

namespace MapStyle.Number

open Float.Model Float.Model.UnpackedFloat

variable {x y : Float} {m n k : ℕ}

/-! ## NaN and infinities -/

/-- An operation that NaN goes through. -/
structure KeepsNaN (op : UnpackedFloat → UnpackedFloat → UnpackedFloat) :
    Prop where
  left : ∀ b, op .notANumber b = .notANumber
  right : ∀ a, op a .notANumber = .notANumber

namespace KeepsNaN

theorem add : KeepsNaN (UnpackedFloat.add .binary64) where
  left _ := rfl
  right a := by cases a <;> rfl

theorem sub : KeepsNaN (UnpackedFloat.sub .binary64) where
  left _ := rfl
  right a := by cases a <;> rfl

theorem mul : KeepsNaN (UnpackedFloat.mul .binary64) where
  left _ := rfl
  right a := by cases a <;> rfl

theorem div : KeepsNaN (UnpackedFloat.div .binary64) where
  left _ := rfl
  right a := by cases a <;> rfl

theorem isNaN {op : UnpackedFloat → UnpackedFloat → UnpackedFloat}
    (hop : KeepsNaN op) (h : x.isNaN = true ∨ y.isNaN = true) :
    (Float.ofModel (.pack (op x.toModel.unpack y.toModel.unpack))).isNaN =
      true := by
  rcases h with h | h
  · rw [unpack_of_isNaN h, hop.left]
    rfl
  · rw [unpack_of_isNaN h, hop.right]
    rfl

end KeepsNaN

theorem isFinite_pack (u : UnpackedFloat) (h : u.isFinite = false) :
    (Float.ofModel (.pack u)).isFinite = false := by
  cases u with
  | notANumber => rfl
  | infinity s => cases s <;> rfl
  | zero | finite => cases h

theorem isFinite_add (h : x.isFinite = false) : (x + y).isFinite = false := by
  have h : x.toModel.unpack.isFinite = false := h
  refine isFinite_pack (UnpackedFloat.add .binary64 x.toModel.unpack
    y.toModel.unpack) ?_
  cases hx : x.toModel.unpack with
  | notANumber => rfl
  | infinity s =>
      cases y.toModel.unpack with
      | infinity t => cases s <;> cases t <;> rfl
      | _ => rfl
  | zero | finite =>
      rw [hx] at h
      cases h

theorem isFinite_mul (h : x.isFinite = false ∨ y.isFinite = false) :
    (x * y).isFinite = false := by
  have h : x.toModel.unpack.isFinite = false ∨
    y.toModel.unpack.isFinite = false := h
  refine isFinite_pack (UnpackedFloat.mul .binary64 x.toModel.unpack
    y.toModel.unpack) ?_
  cases hx : x.toModel.unpack with
  | notANumber => rfl
  | infinity s => cases y.toModel.unpack <;> rfl
  | zero | finite =>
      rw [hx] at h
      cases hy : y.toModel.unpack with
      | notANumber | infinity => rfl
      | zero | finite =>
          rw [hy] at h
          exact absurd h (by simp [UnpackedFloat.isFinite])

theorem not_pos_div (hy : y.isFinite = false) : ¬ 0 < x / y := by
  have hy : y.toModel.unpack.isFinite = false := hy
  -- What is left is NaN or a zero.
  have hnan : order 0 (.ofModel (.pack .notANumber)) = none := rfl
  have hzero (s : Sign) : order 0 (.ofModel (.pack (.zero s))) = some .eq := by
    cases s <;> rfl
  rw [lt_iff_order]
  show ¬ order 0 (.ofModel (.pack (UnpackedFloat.div .binary64
    x.toModel.unpack y.toModel.unpack))) = _
  cases hy' : y.toModel.unpack with
  | notANumber => cases x.toModel.unpack <;> simp [UnpackedFloat.div, hnan]
  | infinity s =>
      cases x.toModel.unpack <;> simp [UnpackedFloat.div, hnan, hzero]
  | zero | finite =>
      rw [hy'] at hy
      cases hy

/-! ## Bounds -/

/-- Whether a double is at most `2 ^ n` in size, as far as comparing tells. -/
def Bounded (n : ℕ) (x : Float) : Prop :=
  x.isNaN = true ∨ (x.isFinite = true ∧ |value x| ≤ 2 ^ n)

theorem bounded_iff {b : Float} (hb : b.isFinite = true)
    (hvalue : value b = 2 ^ n) : Bounded n x ↔ ¬ b < x.abs := by
  rw [gt_iff_value hb, isFinite_abs, value_abs, hvalue, unpack_abs_infinity]
  rcases isFinite_or x with hx | ⟨s, hs⟩ | hx
  · have hnan := isNaN_of_isFinite hx
    have hinf (s : Sign) : x.toModel.unpack ≠ .infinity s := fun h =>
      not_isFinite_of_infinity h hx
    simp only [Bounded, hnan, hx, hinf, Bool.false_eq_true, false_or, true_and,
      not_lt]
  · have hfinite := not_isFinite_of_infinity hs
    have hnan := isNaN_of_infinity hs
    cases s <;> simp only [Bounded, hnan, hfinite, hs, Bool.false_eq_true,
      false_and, true_or, or_true, or_self, not_true]
  · have hinf (s : Sign) : x.toModel.unpack ≠ .infinity s := fun h => by
      rw [isNaN_of_infinity h] at hx
      cases hx
    have hfinite : ¬ x.isFinite = true := fun h => by
      rw [isNaN_of_isFinite h] at hx
      cases hx
    simp only [Bounded, hx, hinf, hfinite, Bool.false_eq_true, false_and,
      or_false, not_false_iff]

theorem Bounded.mono (h : Bounded m x) (hle : m ≤ n) : Bounded n x :=
  h.imp_right fun ⟨hfinite, hvalue⟩ =>
    ⟨hfinite, hvalue.trans (pow_le_pow_right₀ (by norm_num) hle)⟩

theorem RoundsTo.bounded {v : ℚ} (h : RoundsTo v x) (hle : |v| ≤ 2 ^ n)
    (hn : n < 1024) : Bounded n x := by
  have hrepresentable : Representable (2 ^ n) := by
    exact_mod_cast representable_two_zpow (e := n) (by omega)
  obtain ⟨hfinite, hnear⟩ := h.nearest hrepresentable hle
    (by exact_mod_cast two_zpow_lt (e := n) (f := 1024) (by omega))
  exact .inr ⟨hfinite, hnear.abs_le_of_abs_le hrepresentable hle⟩

theorem Bounded.add (hx : Bounded n x) (hy : Bounded n y)
    (hn : n + 1 < 1024) : Bounded (n + 1) (x + y) := by
  rcases hx with hx | ⟨hx, hx'⟩
  · exact .inl (KeepsNaN.add.isNaN (.inl hx))
  rcases hy with hy | ⟨hy, hy'⟩
  · exact .inl (KeepsNaN.add.isNaN (.inr hy))
  refine (roundsTo_add hx hy).bounded ?_ hn
  calc |value x + value y| ≤ |value x| + |value y| := abs_add_le ..
    _ ≤ 2 ^ n + 2 ^ n := add_le_add hx' hy'
    _ = 2 ^ (n + 1) := by ring

theorem Bounded.sub (hx : Bounded n x) (hy : Bounded n y)
    (hn : n + 1 < 1024) : Bounded (n + 1) (x - y) := by
  rcases hx with hx | ⟨hx, hx'⟩
  · exact .inl (KeepsNaN.sub.isNaN (.inl hx))
  rcases hy with hy | ⟨hy, hy'⟩
  · exact .inl (KeepsNaN.sub.isNaN (.inr hy))
  refine (roundsTo_sub hx hy).bounded ?_ hn
  calc |value x - value y| ≤ |value x| + |value y| := abs_sub ..
    _ ≤ 2 ^ n + 2 ^ n := add_le_add hx' hy'
    _ = 2 ^ (n + 1) := by ring

theorem Bounded.mul (hx : Bounded m x) (hy : Bounded n y)
    (hn : m + n < 1024) : Bounded (m + n) (x * y) := by
  rcases hx with hx | ⟨hx, hx'⟩
  · exact .inl (KeepsNaN.mul.isNaN (.inl hx))
  rcases hy with hy | ⟨hy, hy'⟩
  · exact .inl (KeepsNaN.mul.isNaN (.inr hy))
  refine (roundsTo_mul hx hy).bounded ?_ hn
  rw [abs_mul, pow_add]
  exact mul_le_mul hx' hy' (abs_nonneg _) (by positivity)

/-- Dividing by an infinity leaves nothing of a finite number. -/
theorem bounded_div_of_not_isFinite (hx : x.isNaN = true ∨ x.isFinite = true)
    (hy : y.isFinite = false) : Bounded n (x / y) := by
  have hnan : Bounded n (.ofModel (.pack .notANumber)) := .inl rfl
  have hzero (s : Sign) : Bounded n (.ofModel (.pack (.zero s))) := by
    have hfinite : (Float.ofModel (.pack (.zero s))).isFinite = true := by
      cases s <;> rfl
    have hvalue : value (.ofModel (.pack (.zero s))) = 0 := by
      cases s <;> rfl
    exact .inr ⟨hfinite, by rw [hvalue, abs_zero]; positivity⟩
  have hx : x.toModel.unpack.isNaN = true ∨
    x.toModel.unpack.isFinite = true := hx
  have hy : y.toModel.unpack.isFinite = false := hy
  show Bounded n (.ofModel (.pack (UnpackedFloat.div .binary64
    x.toModel.unpack y.toModel.unpack)))
  cases hy' : y.toModel.unpack with
  | notANumber =>
      cases x.toModel.unpack <;> exact hnan
  | infinity s =>
      cases hx' : x.toModel.unpack with
      | notANumber => exact hnan
      | zero t | finite t => exact hzero (t / s)
      | infinity t =>
          rw [hx'] at hx
          exact absurd hx (by simp [UnpackedFloat.isNaN, UnpackedFloat.isFinite])
  | zero | finite =>
      rw [hy'] at hy
      cases hy

theorem Bounded.div (hx : Bounded (m + n) x)
    (hy : y.isFinite = true → 2 ^ m ≤ |value y|) (hn : n < 1024) :
    Bounded n (x / y) := by
  by_cases hfinite : y.isFinite = true
  · rcases hx with hx | ⟨hx, hx'⟩
    · exact .inl (KeepsNaN.div.isNaN (.inl hx))
    have hpos : 0 < |value y| := (by positivity : (0 : ℚ) < 2 ^ m).trans_le
      (hy hfinite)
    refine (roundsTo_div hx hfinite (abs_pos.1 hpos)).bounded ?_ hn
    rw [abs_div, div_le_iff₀ hpos]
    calc |value x| ≤ 2 ^ n * 2 ^ m := by rwa [← pow_add, add_comm]
      _ ≤ 2 ^ n * |value y| := by
        have := hy hfinite
        gcongr
  · exact bounded_div_of_not_isFinite (hx.imp_right And.left)
      (Bool.eq_false_iff.2 hfinite)

/-- Multiplying by a number and dividing by it again keeps a bound, if the
product is finite. -/
theorem Bounded.mul_div (hx : Bounded n x) (hn : n < 1024)
    (hfinite : (x * y).isFinite = true) : Bounded n (x * y / y) := by
  have hx' : x.isFinite = true := by
    by_contra h
    rw [isFinite_mul (.inl (Bool.eq_false_iff.2 h))] at hfinite
    cases hfinite
  have hy' : y.isFinite = true := by
    by_contra h
    rw [isFinite_mul (.inr (Bool.eq_false_iff.2 h))] at hfinite
    cases hfinite
  obtain hnan | ⟨-, hle⟩ := hx
  · rw [isNaN_of_isFinite hx'] at hnan
    cases hnan
  have hproduct : |value (x * y)| ≤ |value y| * 2 ^ n := by
    refine ((roundsTo_mul hx' hy').nearest_of_isFinite hfinite).abs_le_of_abs_le
      ((representable_value y).abs.mul_two_pow n) ?_
    rw [abs_mul, mul_comm]
    exact mul_le_mul_of_nonneg_left hle (abs_nonneg _)
  by_cases hzero : value y = 0
  · -- A zero divided by a zero.
    have hvalue : value (x * y) = 0 := by
      have hnear := (roundsTo_mul hx' hy').nearest_of_isFinite hfinite
      rw [hzero, mul_zero] at hnear
      exact hnear.eq_self (representable_intCast (n := 0) (by decide))
    obtain ⟨s, hs⟩ := unpack_of_value_eq_zero hfinite hvalue
    obtain ⟨t, ht⟩ := unpack_of_value_eq_zero hy' hzero
    left
    show (Float.Model.pack (UnpackedFloat.div .binary64 (x * y).toModel.unpack
      y.toModel.unpack)).unpack.isNaN = true
    rw [hs, ht]
    show (Float.Model.pack .notANumber).unpack.isNaN = true
    rfl
  · refine (roundsTo_div hfinite hy' hzero).bounded ?_ hn
    rwa [abs_div, div_le_iff₀ (abs_pos.2 hzero), mul_comm]

end MapStyle.Number
