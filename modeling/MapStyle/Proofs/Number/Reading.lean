import MapStyle.Number.Read
import MapStyle.Proofs.Number.Ranges

/-!
# Texts that are read as NaN

Decimal numbers are rounded, so that the reader of numbers gives NaN for no text
other than the word for it (`isNaN_of_read?`).
-/

namespace MapStyle.Number

open Float.Model Float.Model.UnpackedFloat

variable {v : ℚ} {x y : Float} {cs : List Char}

/-- Whether a text is the word for NaN, after a sign if there is one. -/
def SpellsNaN (cs : List Char) : Prop :=
  String.ofList ((signed cs).2.map Char.toLower) = "nan"

instance : DecidablePred SpellsNaN := fun _ => inferInstanceAs (Decidable (_ = _))

/-! ## Decimal numbers -/

theorem RoundsTo.isNaN (h : RoundsTo v x) : x.isNaN = false := by
  obtain ⟨-, -, ⟨hfinite, -⟩ | ⟨hinf, -⟩⟩ := h
  · exact isNaN_of_isFinite hfinite
  · have hinf : x.toModel.unpack.isInf = true := hinf
    show x.toModel.unpack.isNaN = false
    cases hx : x.toModel.unpack with
    | infinity s => rfl
    | notANumber | zero | finite =>
        rw [hx] at hinf
        cases hinf

/-- A quotient by a number other than zero is NaN only if the dividend is. -/
theorem isNaN_div (hy : y.isFinite = true) (hzero : value y ≠ 0) :
    (x / y).isNaN = x.isNaN := by
  rcases isFinite_or x with hx | ⟨s, hs⟩ | hx
  · rw [(roundsTo_div hx hy hzero).isNaN, isNaN_of_isFinite hx]
  · rw [isNaN_of_infinity hs]
    show (Float.Model.pack (UnpackedFloat.div .binary64 x.toModel.unpack
      y.toModel.unpack)).unpack.isNaN = false
    have hy : y.toModel.unpack.isFinite = true := hy
    rw [hs]
    cases hy' : y.toModel.unpack with
    | infinity | notANumber =>
        rw [hy'] at hy
        cases hy
    | zero t | finite t =>
        exact congrArg UnpackedFloat.isNaN (unpack_pack_infinity (s / t))
  · have hquotient : (x / y).isNaN = true := KeepsNaN.div.isNaN (.inl hx)
    rw [hquotient, hx]

theorem isNaN_ofScientific_large (m : ℕ) (e : ℤ) :
    (Float.ofModel (.pack (UnpackedFloat.ofScientific .binary64 m e))).isNaN =
      false := by
  rw [UnpackedFloat.ofScientific]
  split
  · rfl
  · next hm =>
      split
      · rfl
      · split
        · rfl
        · split
          · have hbits : 52 ≤ (m <<< 53 * 10 ^ e.toNat).log2 := by
              rw [Nat.shiftLeft_eq]
              refine le_log2_mul ?_ (by positivity)
              have := Nat.pos_of_ne_zero hm
              omega
            have hrounded := roundWithAccuracy_spec (e := -53 + 0)
              (approximates_exact _) (.inl hbits) (.positive * .positive)
            exact (roundsTo_pack hrounded).isNaN
          · have hpos : 0 < 10 ^ (-e).toNat := by positivity
            refine (roundsTo_pack (rounded_div (by rfl) (by rfl) ?_)).isNaN
            rw [valueOf_finite, factor]
            positivity

theorem pos_powerOfTen : ∀ i : Fin 23,
    Float.exactlyRepresentablePowersOfTen[i].isFinite = true ∧
      0 < Float.exactlyRepresentablePowersOfTen[i] := by
  decide +kernel

theorem finite_toFloat {m : ℕ} (hm : m < 2 ^ 53) :
    m.toUInt64.toFloat.isFinite = true := by
  have hsame : m.toUInt64.toNat = m := by
    rw [Nat.toUInt64, UInt64.toNat_ofNat']
    exact Nat.mod_eq_of_lt (by omega)
  have h := normalize_spec m.toUInt64.toNat 0 .positive
  rw [zpow_zero, mul_one, Int.cast_natCast, hsame] at h
  obtain ⟨hfinite, -⟩ := (roundsTo_pack h).between isValue_zero
    (isValue_natCast hm.le) (Nat.cast_nonneg m) le_rfl
  rw [← hsame] at hfinite
  exact hfinite

theorem isNaN_ofScientific (m : ℕ) (negative : Bool) (e : ℕ) :
    (Float.ofScientific m negative e).isNaN = false := by
  rw [Float.ofScientific]
  split
  · next hsmall =>
      obtain ⟨hpower, hpos⟩ := pos_powerOfTen ⟨e, by omega⟩
      have hdigits := finite_toFloat hsmall.1
      split
      · refine (roundsTo_div hdigits hpower ?_).isNaN
        have hzero := between_zero
        exact (hzero.2.1.trans_lt ((lt_iff_value hzero.1 hpower).1 hpos)).ne'
      · exact (roundsTo_mul hdigits hpower).isNaN
  · exact isNaN_ofScientific_large m _

theorem isNaN_toFloat (d : Decimal) : d.toFloat.isNaN = false := by
  rw [Decimal.toFloat]
  split
  · rfl
  · split
    · rfl
    · exact isNaN_ofScientific _ _ _

theorem isNaN_of_magnitude? (h : magnitude? cs = some x) :
    x.isNaN = false := by
  unfold magnitude? at h
  simp only [Option.bind_eq_bind] at h
  obtain ⟨d, rfl⟩ : ∃ d : Decimal, d.toFloat = x := by
    -- With a fraction and without one.
    split at h
    all_goals
      split at h
      · cases h
      · split at h
        · exact ⟨_, Option.some.inj h⟩
        · split at h
          · obtain ⟨e, -, he⟩ := Option.bind_eq_some_iff.1 h
            exact ⟨_, Option.some.inj he⟩
          · cases h
  exact isNaN_toFloat d

/-! ## Words -/

theorem isNaN_neg (x : Float) : (-x).isNaN = x.isNaN := by
  show (-x).toModel.unpack.isNaN = x.toModel.unpack.isNaN
  rw [unpack_neg]
  cases x.toModel.unpack <;> rfl

/-- The reader gives NaN for the word, and for nothing else. -/
theorem isNaN_of_read? (h : read? cs = some x) :
    x.isNaN = true ↔ SpellsNaN cs := by
  obtain ⟨y, hy, rfl⟩ : ∃ y, (y.isNaN = true ↔ SpellsNaN cs) ∧
      (if (signed cs).1 then -y else y) = x := by
    unfold read? at h
    simp only [Option.bind_eq_bind, beq_iff_eq, Bool.or_eq_true] at h
    split at h
    · next hword =>
        have hnot : ¬ SpellsNaN cs := by
          rw [SpellsNaN]
          obtain hword | hword := hword <;> rw [hword] <;> decide
        exact ⟨infinity, iff_of_false (by decide +kernel) hnot,
          Option.some.inj h⟩
    · split at h
      · next hword => exact ⟨nan, iff_of_true (by rfl) hword, Option.some.inj h⟩
      · next hword =>
          obtain ⟨y, hy, hsign⟩ := Option.bind_eq_some_iff.1 h
          refine ⟨y, iff_of_false ?_ hword, Option.some.inj hsign⟩
          rw [isNaN_of_magnitude? hy]
          exact Bool.false_ne_true
  split
  · rwa [isNaN_neg]
  · exact hy

end MapStyle.Number
