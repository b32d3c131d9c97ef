import Mathlib.Algebra.Order.Field.Basic
import Mathlib.Tactic.LinearCombination
import Mathlib.Tactic.Linarith
import Mathlib.Tactic.NormNum
import Mathlib.Tactic.Ring
import MapStyle.Curve.Bezier

/-!
# The polynomials of easing curves

Over exact numbers an easing curve with control values between zero and one
stays between zero and one on its way (`value_mem`), and looks like a curve of
the same kind from its other end (`value_reflect`).

A step of Newton's method goes to the point where the tangent reaches the input
(`next`), so that a bound on a tangent is a bound on the step (`next_le`,
`le_next`). What all steps preserve holds of what the method returns
(`newton?_invariant`).
-/

namespace MapStyle.Curve.Cubic

section Identities

variable {α : Type} [Field α]

theorem value_eq (f : Cubic α) (t : α) :
    f.value t = f.a * t ^ 3 + f.b * t ^ 2 + f.c * t := by
  rw [value]
  ring

theorem slope_eq (f : Cubic α) (t : α) :
    f.slope t = 3 * f.a * t ^ 2 + 2 * f.b * t + f.c := by
  rw [slope]
  push_cast
  ring

/-- A cubic around a point: its tangent and the distance from it. -/
theorem value_expand (f : Cubic α) (t y : α) :
    f.value y = f.value t + f.slope t * (y - t)
      + (y - t) ^ 2 * (f.a * (y - t) + (3 * f.a * t + f.b)) := by
  rw [value_eq, value_eq, slope_eq]
  ring

theorem slope_expand (f : Cubic α) (t y : α) :
    f.slope y = f.slope t
      + (y - t) * (2 * (3 * f.a * t + f.b) + 3 * f.a * (y - t)) := by
  rw [slope_eq, slope_eq]
  ring

variable (p q t : α)

theorem ofControl_a : (ofControl p q).a = 1 - 3 * (q - p) := by
  simp only [ofControl]
  push_cast
  ring

theorem ofControl_b : (ofControl p q).b = 3 * (q - p) - 3 * p := by
  simp only [ofControl]
  push_cast
  ring

theorem ofControl_c : (ofControl p q).c = 3 * p := by
  simp only [ofControl]
  push_cast
  ring

/-- A curve in the weights of its control values. -/
theorem value_ofControl : (ofControl p q).value t =
    3 * p * (t * (1 - t) ^ 2) + 3 * q * (t ^ 2 * (1 - t)) + t ^ 3 := by
  rw [value_eq, ofControl_a, ofControl_b, ofControl_c]
  ring

theorem slope_ofControl : (ofControl p q).slope t =
    3 * (p * (1 - t) ^ 2 + 2 * (q - p) * (t * (1 - t)) + (1 - q) * t ^ 2) := by
  rw [slope_eq, ofControl_a, ofControl_b, ofControl_c]
  ring

/-- The curve seen from its other end. -/
theorem value_reflect : (ofControl (1 - q) (1 - p)).value (1 - t) =
    1 - (ofControl p q).value t := by
  rw [value_ofControl, value_ofControl]
  ring

theorem slope_reflect : (ofControl (1 - q) (1 - p)).slope (1 - t) =
    (ofControl p q).slope t := by
  rw [slope_ofControl, slope_ofControl]
  ring

/-- Seen from the far end, `t` before it. -/
theorem value_one_sub : (ofControl p q).value (1 - t) =
    1 - 3 * (1 - q) * t - 3 * ((q - p) - (1 - q)) * t ^ 2
      - (1 - 3 * (q - p)) * t ^ 3 := by
  rw [value_ofControl]
  ring

theorem slope_one_sub : (ofControl p q).slope (1 - t) =
    3 * (1 - q) + 6 * ((q - p) - (1 - q)) * t
      + 3 * (1 - 3 * (q - p)) * t ^ 2 := by
  rw [slope_ofControl]
  ring

/-- The point where the tangent at `t` reaches `x`. -/
def next (f : Cubic α) (x t : α) : α :=
  t - (f.value t - x) / f.slope t

theorem slope_mul_next {f : Cubic α} {x t : α} (h : f.slope t ≠ 0) :
    f.slope t * (next f x t - t) = x - f.value t := by
  rw [next, sub_sub_cancel_left, mul_neg, mul_div_cancel₀ _ h, neg_sub]

end Identities

variable {α : Type} [Field α] [LinearOrder α] [IsStrictOrderedRing α]
variable {f : Cubic α} {p q t x y epsilon : α} {n : ℕ}

theorem isSmall_iff : isSmall epsilon x = true ↔ |x| < epsilon := by
  rw [isSmall, Bool.and_eq_true, decide_eq_true_iff, decide_eq_true_iff, abs_lt]

theorem one_sub_mem (ht : t ∈ Set.Icc 0 1) : 1 - t ∈ Set.Icc 0 1 :=
  ⟨sub_nonneg.2 ht.2, sub_le_self 1 ht.1⟩

/-- Control values between zero and one keep the curve there. -/
theorem value_mem (hp : p ∈ Set.Icc 0 1) (hq : q ∈ Set.Icc 0 1)
    (ht : t ∈ Set.Icc 0 1) : (ofControl p q).value t ∈ Set.Icc 0 1 := by
  have hlow {p q t : α} (hp : 0 ≤ p) (hq : 0 ≤ q) (ht : t ∈ Set.Icc 0 1) :
      0 ≤ (ofControl p q).value t := by
    have ht₀ := ht.1
    have ht₁ := sub_nonneg.2 ht.2
    rw [value_ofControl]
    positivity
  refine ⟨hlow hp.1 hq.1 ht, ?_⟩
  rw [← sub_nonneg, ← value_reflect]
  exact hlow (sub_nonneg.2 hq.2) (sub_nonneg.2 hp.2) (one_sub_mem ht)

/-! ## Steps -/

omit [IsStrictOrderedRing α] in
theorem newton?_succ : newton? f x epsilon (n + 1) t =
    if isSmall epsilon (f.value t - x) then some t
    else if isSmall 1e-6 (f.slope t) then none
    else newton? f x epsilon n (next f x t) := rfl

/-- What every step preserves that does not start close to the input holds of
the parameter returned, which is close. -/
theorem newton?_invariant {I : α → Prop}
    (hstep : ∀ t, I t → f.slope t ≠ 0 → epsilon ≤ |f.value t - x| →
      I (next f x t)) (hstart : I t) (h : newton? f x epsilon n t = some y) :
    I y ∧ |f.value y - x| < epsilon := by
  induction n generalizing t with
  | zero => cases h
  | succ n ih =>
      rw [newton?_succ] at h
      split at h
      · next hsmall =>
        obtain rfl := Option.some_inj.1 h
        exact ⟨hstart, isSmall_iff.1 hsmall⟩
      · next hfar =>
        split at h
        · cases h
        · next hflat =>
          refine ih (hstep t hstart ?_ ?_) h
          · intro hzero
            rw [isSmall_iff, hzero, abs_zero] at hflat
            exact hflat (by norm_num)
          · rwa [isSmall_iff, not_lt] at hfar

theorem newton?_of_small (hsmall : |f.value t - x| < epsilon)
    (h : newton? f x epsilon n t = some y) : y = t := by
  cases n with
  | zero => cases h
  | succ n =>
      rw [newton?_succ, if_pos (isSmall_iff.2 hsmall)] at h
      exact (Option.some_inj.1 h).symm

theorem isSmall_neg :
    isSmall epsilon (-x) = isSmall epsilon x := by
  rw [Bool.eq_iff_iff, isSmall_iff, isSmall_iff, abs_neg]

/-- From the other end the method takes the mirrored steps. -/
theorem newton?_reflect :
    newton? (ofControl (1 - q) (1 - p)) (1 - x) epsilon n (1 - t) =
      (newton? (ofControl p q) x epsilon n t).map (1 - ·) := by
  have hmiss (t : α) : (ofControl (1 - q) (1 - p)).value (1 - t) - (1 - x) =
      -((ofControl p q).value t - x) := by
    rw [value_reflect]
    ring
  have hnext (t : α) : next (ofControl (1 - q) (1 - p)) (1 - x) (1 - t) =
      1 - next (ofControl p q) x t := by
    rw [next, next, hmiss, slope_reflect]
    ring
  induction n generalizing t with
  | zero => rfl
  | succ n ih =>
      rw [newton?_succ, newton?_succ, hmiss, isSmall_neg, slope_reflect, hnext,
        ih]
      split
      · rfl
      · split <;> rfl

/-- The next point is not beyond `y` if the tangent is not below `x` there. -/
theorem next_le (h : 0 < f.slope t)
    (hy : x ≤ f.value t + f.slope t * (y - t)) : next f x t ≤ y := by
  have hnext := slope_mul_next (x := x) h.ne'
  refine le_of_mul_le_mul_left ?_ h
  linarith

theorem le_next (h : 0 < f.slope t)
    (hy : f.value t + f.slope t * (y - t) ≤ x) : y ≤ next f x t := by
  have hnext := slope_mul_next (x := x) h.ne'
  refine le_of_mul_le_mul_left ?_ h
  linarith

end MapStyle.Curve.Cubic
