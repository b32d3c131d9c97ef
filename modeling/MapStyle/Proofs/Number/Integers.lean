import MapStyle.Proofs.Number.Nearest

/-!
# Integers as doubles

A finite double is an integer if its value is one, and the double truncates to
that integer. So the integer of a label tells doubles apart exactly as far as
their equality does: what equals an integer of safe size is the same integer,
with the two zeros taken together (`safeInteger?_iff_beq`).
-/

namespace MapStyle.Number

variable {x y : Float} {b : Binary} {i : ℤ}

theorem value_of_isWhole (h : Binary.ofFloat? x = some b)
    (hwhole : b.isWhole = true) : value x = b.wholePart := by
  have hdenominator : (b.denominator : ℚ) ≠ 0 := by
    exact_mod_cast b.denominator_pos.ne'
  have hdiv : b.numerator = b.numerator / b.denominator * b.denominator :=
    (Nat.div_mul_cancel (Nat.dvd_of_mod_eq_zero (eq_of_beq hwhole))).symm
  have hwholePart : (b.wholePart : ℚ) =
      factor (signOf b) * (b.numerator / b.denominator : ℕ) := by
    rw [Binary.wholePart, signOf]
    generalize b.numerator / b.denominator = q
    cases b.negative <;> simp [factor]
  refine mul_right_cancel₀ hdenominator ?_
  rw [value_mul_denominator h, hwholePart, mul_assoc]
  congr 1
  exact_mod_cast hdiv

theorem isWhole_of_value (h : Binary.ofFloat? x = some b)
    (hvalue : value x = i) : b.isWhole = true := by
  have hfraction := value_mul_denominator h
  rw [hvalue] at hfraction
  have habs : i.natAbs * b.denominator = b.numerator := by
    have habs := congrArg abs hfraction
    rw [abs_mul, abs_mul, abs_factor, one_mul, Nat.abs_cast, Nat.abs_cast,
      ← Int.cast_abs, Int.abs_eq_natAbs] at habs
    exact_mod_cast habs
  rw [Binary.isWhole, ← habs, Nat.mul_mod_left]
  rfl

/-- A double stands for an integer if its value is the integer, and it is not so
large that others would. -/
theorem safeInteger?_eq_some : safeInteger? x = some i ↔
    x.isFinite = true ∧ value x = i ∧ i.natAbs ≤ largestSafe := by
  rw [isFinite_iff_ofFloat?, safeInteger?, isWhole, wholePart]
  cases hx : Binary.ofFloat? x with
  | none => simp
  | some b =>
      simp only [Option.some.injEq, exists_eq', true_and]
      constructor
      · intro h
        split at h
        · next hsafe =>
            obtain ⟨hwhole, hsize⟩ := Bool.and_eq_true_iff.1 hsafe
            obtain rfl := Option.some.inj h
            exact ⟨value_of_isWhole hx hwhole, of_decide_eq_true hsize⟩
        · cases h
      · rintro ⟨hvalue, hsize⟩
        have hwhole := isWhole_of_value hx hvalue
        obtain rfl : b.wholePart = i := by
          rw [value_of_isWhole hx hwhole] at hvalue
          exact_mod_cast hvalue
        rw [hwhole, decide_eq_true hsize]
        rfl

/-- What is equal to a finite double. -/
theorem beq_iff_value (hx : x.isFinite = true) :
    (x == y) = true ↔ y.isFinite = true ∧ value x = value y := by
  rw [beq_iff_order]
  rcases isFinite_or y with hy | ⟨s, hs⟩ | hy
  · rw [and_iff_right hy]
    constructor
    · intro heq
      rw [order, compare_eq_place (isNaN_of_isFinite hx) (isNaN_of_isFinite hy),
        Option.some_inj, compare_eq_iff_eq] at heq
      exact valueOf_eq hx hy heq
    · intro hvalue
      have hle := (le_iff_value hx hy).2 hvalue.le
      refine ((le_iff_order _ _).1 hle).resolve_left fun hlt => ?_
      exact hvalue.not_lt ((lt_iff_value hx hy).1 ((lt_iff_order _ _).2 hlt))
  · have hnot := not_isFinite_of_infinity hs
    have horder := order_infinity hx hs
    cases s with
    | positive => simp [horder.1.2 rfl, hnot]
    | negative => simp [horder.2.2 rfl, hnot]
  · rw [order_of_isNaN (.inr hy)]
    refine iff_of_false (Option.some_ne_none _).symm ?_
    rintro ⟨hfinite, -⟩
    rw [isNaN_of_isFinite hfinite] at hy
    cases hy

/-- The doubles of an integer of safe size are those that equal one of them. -/
theorem safeInteger?_iff_beq (hx : safeInteger? x = some i) :
    safeInteger? y = some i ↔ (x == y) = true := by
  obtain ⟨hfinite, hvalue, hsize⟩ := safeInteger?_eq_some.1 hx
  rw [safeInteger?_eq_some, beq_iff_value hfinite, hvalue]
  exact ⟨fun ⟨hy, h, _⟩ => ⟨hy, h.symm⟩, fun ⟨hy, h⟩ => ⟨hy, h.symm, hsize⟩⟩

end MapStyle.Number
