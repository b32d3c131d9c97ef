import Mathlib.Data.Rat.Floor
import MapStyle.Proofs.Number.Nearest
import MapStyle.Semantics.Collection

/-!
# Places that indices stand for

The index of a search or a slice is any double. The place that it stands for is
said here of its exact value (`placeIn`), and the rule of the evaluator, which
works on the units of the double, finds that place (`resolveIndex_eq`).
-/

namespace MapStyle

namespace Number

/-- The integer next to a number on the way to zero. -/
def truncate (q : ℚ) : ℤ :=
  if 0 ≤ q then ⌊q⌋ else ⌈q⌉

theorem truncate_neg (q : ℚ) : truncate (-q) = -truncate q := by
  unfold truncate
  rcases lt_trichotomy q 0 with hq | rfl | hq
  · rw [if_pos (neg_nonneg.2 hq.le), if_neg hq.not_ge, Int.floor_neg]
  · simp
  · rw [if_neg (neg_neg_of_pos hq).not_ge, if_pos hq.le, Int.ceil_neg]

theorem truncate_div (m n : ℕ) : truncate (m / n) = (m / n : ℕ) := by
  have hnonneg : (0 : ℚ) ≤ m / n := by positivity
  rw [truncate, if_pos hnonneg]
  exact Rat.floor_natCast_div_natCast m n

/-- What a finite double truncates to is its value truncated. -/
theorem wholePart_eq_truncate {x : Float} {b : Binary}
    (h : Binary.ofFloat? x = some b) : b.wholePart = truncate (value x) := by
  have hdenominator : (b.denominator : ℚ) ≠ 0 := by
    exact_mod_cast b.denominator_pos.ne'
  have hvalue : value x =
      factor (signOf b) * ((b.numerator : ℚ) / b.denominator) := by
    rw [← mul_div_assoc, eq_div_iff hdenominator]
    exact value_mul_denominator h
  rw [hvalue, Binary.wholePart, signOf, ← truncate_div]
  cases b.negative with
  | false => exact congrArg truncate (one_mul _).symm
  | true =>
      rw [if_pos rfl, if_pos rfl, factor, neg_one_mul]
      exact (truncate_neg _).symm

end Number

namespace Semantics

/-- The place of an index in a sequence of `n` items: its value without the
fraction, counted from the end if it is negative and kept within the sequence.
An infinite index stands for the end that it points to, and NaN for the
start. -/
def placeIn (n : ℕ) (x : Float) : ℕ :=
  if x.isFinite then
    let i := Number.truncate (Number.value x)
    (max 0 (min (n : ℤ) (if i < 0 then n + i else i))).toNat
  else if 0 < x then n else 0

theorem resolveIndex_eq (x : Float) (n : ℕ) :
    resolveIndex x n = placeIn n x := by
  unfold resolveIndex placeIn
  split
  · next b hb =>
      have hfinite := Number.isFinite_iff_ofFloat?.2 ⟨b, hb⟩
      rw [if_pos hfinite, Number.wholePart_eq_truncate hb]
      generalize Number.truncate (Number.value x) = i
      simp only
      split <;> omega
  · next hnone =>
      have hinfinite : ¬ x.isFinite = true := by
        rw [Number.isFinite_iff_ofFloat?, hnone]
        exact fun ⟨b, hb⟩ => Option.some_ne_none b hb.symm
      rw [if_neg hinfinite]

theorem placeIn_le (n : ℕ) (x : Float) : placeIn n x ≤ n := by
  unfold placeIn
  split
  · simp only
    omega
  · split <;> omega

/-- Zeros and NaN stand for the start. -/
theorem placeIn_of_unsigned {x : Float} (hpos : ¬ 0 < x) (hneg : ¬ x < 0)
    (n : ℕ) : placeIn n x = 0 := by
  rw [placeIn, if_neg hpos]
  split
  · next hfinite =>
      rw [Number.lt_iff_value rfl hfinite] at hpos
      rw [Number.lt_iff_value hfinite rfl] at hneg
      have hzero : Number.value x = 0 := le_antisymm (not_lt.1 hpos)
        (not_lt.1 hneg)
      rw [hzero, Number.truncate, if_pos le_rfl, Int.floor_zero]
      simp
  · rfl

theorem placeIn_zero (n : ℕ) : placeIn n 0 = 0 :=
  placeIn_of_unsigned (Number.lt_irrefl 0) (Number.lt_irrefl 0) n

end Semantics

end MapStyle
