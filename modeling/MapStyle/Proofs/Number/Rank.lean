import Mathlib.Data.Int.Order.Basic
import Mathlib.Data.Prod.Lex
import Mathlib.Order.WithBot

/-!
# Doubles in order

Doubles are not linearly ordered: NaN is in no relation to anything, and the
two zeros are equal without being the same. What is known of linear orders, of
sorting and of searching in particular, reaches them through their ranks. The
rank of a double that is not NaN is its place among the numbers, by kind of
number, exponent and mantissa in this order, and two such doubles compare as
their places do. NaN has the lowest rank, which it shares with no number.

Exponents can decide before mantissas do because a double is unpacked to the
largest mantissa it has room for; the comparison of the logical model rests on
that as well, so nothing about it has to be shown here.
-/

namespace MapStyle.Number

open Float.Model Float.Model.UnpackedFloat

/-- A place among the numbers. -/
abbrev Place := ℤ ×ₗ ℤ ×ₗ ℤ

def placeAt (kind exponent mantissa : ℤ) : Place :=
  toLex (kind, toLex (exponent, mantissa))

/-- The place of a number. NaN has none, and zero's stands in for it. -/
def place : UnpackedFloat → Place
  | .infinity .negative => placeAt (-2) 0 0
  | .finite .negative m e _ => placeAt (-1) (-e) (-m)
  | .zero _ | .notANumber => placeAt 0 0 0
  | .finite .positive m e _ => placeAt 1 e m
  | .infinity .positive => placeAt 2 0 0

/-- The rank of a double. -/
def rank (x : Float) : WithBot Place :=
  if x.isNaN then ⊥ else place x.toModel.unpack

/-! ## Comparing by place -/

theorem compare_neg (a b : ℤ) : compare (-a) (-b) = (compare a b).swap := by
  rcases lt_trichotomy a b with h | rfl | h
  · rw [compare_lt_iff_lt.2 h, compare_gt_iff_gt.2 (Int.neg_lt_neg h)]
    rfl
  · rw [compare_eq_iff_eq.2 rfl, compare_eq_iff_eq.2 rfl]
    rfl
  · rw [compare_gt_iff_gt.2 h, compare_lt_iff_lt.2 (Int.neg_lt_neg h)]
    rfl

theorem compare_cast (m n : ℕ) : compare (m : ℤ) n = compare m n := by
  rcases lt_trichotomy m n with h | rfl | h
  · rw [compare_lt_iff_lt.2 h, compare_lt_iff_lt.2 (Int.ofNat_lt.2 h)]
  · rw [compare_eq_iff_eq.2 rfl, compare_eq_iff_eq.2 rfl]
  · rw [compare_gt_iff_gt.2 h, compare_gt_iff_gt.2 (Int.ofNat_lt.2 h)]

theorem compare_eq_place {a b : UnpackedFloat} (ha : a.isNaN = false)
    (hb : b.isNaN = false) :
    a.compare b = some (compare (place a) (place b)) := by
  cases a with
  | notANumber => cases ha
  | infinity s =>
    cases b with
    | notANumber => cases hb
    | infinity t | finite t => cases s <;> cases t <;> rfl
    | zero => cases s <;> rfl
  | zero =>
    cases b with
    | notANumber => cases hb
    | infinity t | finite t => cases t <;> rfl
    | zero => rfl
  | finite s m e =>
    cases b with
    | notANumber => cases hb
    | infinity t => cases s <;> cases t <;> rfl
    | zero => cases s <;> rfl
    | finite t n f =>
      -- Only here the exponents and the mantissas count.
      cases s <;> cases t
      · show some ((compare e f).then (compare m n)).swap =
          some ((compare (-e) (-f)).then (compare (-(m : ℤ)) (-n)))
        rw [compare_neg, compare_neg, compare_cast, Ordering.swap_then]
      · rfl
      · rfl
      · show some ((compare e f).then (compare m n)) =
          some ((compare e f).then (compare (m : ℤ) n))
        rw [compare_cast]

theorem compare_of_isNaN {a b : UnpackedFloat}
    (h : a.isNaN = true ∨ b.isNaN = true) : a.compare b = none := by
  cases a with
  | notANumber => cases b <;> rfl
  | infinity | zero | finite =>
      cases b with
      | notANumber => rfl
      | infinity | zero | finite => rcases h with h | h <;> cases h

/-! ## Comparing doubles -/

variable (x y : Float)

/-- How two doubles compare, which is not at all if one of them is NaN. -/
def order : Option Ordering :=
  x.toModel.unpack.compare y.toModel.unpack

theorem order_swap : order y x = (order x y).map Ordering.swap := by
  by_cases h : x.isNaN = true ∨ y.isNaN = true
  · rw [order, order, compare_of_isNaN h, compare_of_isNaN h.symm]
    rfl
  · obtain ⟨hx, hy⟩ := not_or.1 h
    have hx := Bool.eq_false_iff.2 hx
    have hy := Bool.eq_false_iff.2 hy
    rw [order, order, compare_eq_place hx hy, compare_eq_place hy hx,
      Std.OrientedOrd.eq_swap (a := place y.toModel.unpack)]
    rfl

theorem lt_iff_order : x < y ↔ order x y = some .lt := by
  show decide ((order x y == some .lt) = true) = true ↔ _
  rw [decide_eq_true_iff, beq_iff_eq]

theorem gt_iff_order : y < x ↔ order x y = some .gt := by
  rw [lt_iff_order, order_swap]
  cases order x y with
  | none => simp
  | some o => cases o <;> simp

theorem le_iff_order :
    x ≤ y ↔ order x y = some .lt ∨ order x y = some .eq := by
  show decide ((order x y).any (·.isLE) = true) = true ↔ _
  rw [decide_eq_true_iff]
  cases order x y with
  | none => simp
  | some o => cases o <;> simp

theorem beq_iff_order : (x == y) = true ↔ order x y = some .eq := by
  show (order x y == some .eq) = true ↔ _
  rw [beq_iff_eq]

theorem beq_comm : (x == y) = (y == x) := by
  rw [Bool.eq_iff_iff, beq_iff_order, beq_iff_order, order_swap y x]
  cases order y x with
  | none => simp
  | some o => cases o <;> simp

/-! ## Comparing by rank -/

variable {x y}

theorem rank_of_isNaN (h : x.isNaN = true) : rank x = ⊥ := if_pos h

theorem rank_of_not_isNaN (h : x.isNaN = false) :
    rank x = (place x.toModel.unpack : WithBot Place) := by
  rw [rank, h]
  rfl

theorem rank_eq_bot : rank x = ⊥ ↔ x.isNaN = true := by
  refine ⟨fun h => ?_, rank_of_isNaN⟩
  by_contra hx
  rw [rank_of_not_isNaN (Bool.eq_false_iff.2 hx)] at h
  cases h

theorem compare_coe {κ : Type} [LinearOrder κ] (a b : κ) :
    compare (a : WithBot κ) b = compare a b := by
  rcases lt_trichotomy a b with h | rfl | h
  · rw [compare_lt_iff_lt.2 h, compare_lt_iff_lt.2 (WithBot.coe_lt_coe.2 h)]
  · rw [compare_eq_iff_eq.2 rfl, compare_eq_iff_eq.2 rfl]
  · rw [compare_gt_iff_gt.2 h, compare_gt_iff_gt.2 (WithBot.coe_lt_coe.2 h)]

theorem order_eq_rank (hx : x.isNaN = false) : order x y =
    if rank y = ⊥ then none else some (compare (rank x) (rank y)) := by
  cases hy : y.isNaN with
  | true => rw [order, if_pos (rank_of_isNaN hy), compare_of_isNaN (.inr hy)]
  | false =>
      rw [order, compare_eq_place hx hy, rank_of_not_isNaN hx,
        rank_of_not_isNaN hy, if_neg WithBot.coe_ne_bot, compare_coe]

theorem lt_iff_rank :
    x < y ↔ rank x ≠ ⊥ ∧ compare (rank x) (rank y) = .lt := by
  rw [lt_iff_order]
  cases hx : x.isNaN with
  | true =>
      rw [order, compare_of_isNaN (.inl hx), rank_of_isNaN hx]
      simp
  | false =>
      have hbot : rank x ≠ ⊥ := by
        rw [Ne, rank_eq_bot, hx]
        exact Bool.false_ne_true
      rw [order_eq_rank hx]
      split
      · next hy => simp [hy, compare_lt_iff_lt]
      · simp [hbot]

protected theorem lt_trans {z : Float} (h : x < y) (h' : y < z) : x < z := by
  rw [lt_iff_rank, compare_lt_iff_lt] at h h' ⊢
  exact ⟨h.1, h.2.trans h'.2⟩

theorem le_iff_rank :
    x ≤ y ↔ rank x ≠ ⊥ ∧ compare (rank x) (rank y) ≠ .gt := by
  rw [le_iff_order]
  cases hx : x.isNaN with
  | true =>
      rw [order, compare_of_isNaN (.inl hx), rank_of_isNaN hx]
      simp
  | false =>
      have hbot : rank x ≠ ⊥ := by
        rw [Ne, rank_eq_bot, hx]
        exact Bool.false_ne_true
      rw [order_eq_rank hx]
      split
      · next hy => simp [hy, compare_gt_iff_gt, bot_lt_iff_ne_bot]
      · cases compare (rank x) (rank y) <;> simp [hbot]

protected theorem le_of_lt (h : x < y) : x ≤ y := by
  rw [lt_iff_rank] at h
  rw [le_iff_rank, h.2]
  exact ⟨h.1, Ordering.noConfusion⟩

protected theorem lt_of_lt_of_le {z : Float} (h : x < y) (h' : y ≤ z) :
    x < z := by
  rw [lt_iff_rank, compare_lt_iff_lt] at h ⊢
  rw [le_iff_rank, compare_le_iff_le] at h'
  exact ⟨h.1, h.2.trans_le h'.2⟩

protected theorem lt_of_le_of_lt {z : Float} (h : x ≤ y) (h' : y < z) :
    x < z := by
  rw [lt_iff_rank, compare_lt_iff_lt] at h' ⊢
  rw [le_iff_rank, compare_le_iff_le] at h
  exact ⟨h.1, h.2.trans_lt h'.2⟩

protected theorem lt_irrefl (x : Float) : ¬ x < x := by
  rw [lt_iff_rank, compare_lt_iff_lt]
  exact fun h => h.2.ne rfl

protected theorem not_lt_of_le (h : x ≤ y) : ¬ y < x :=
  fun h' => Number.lt_irrefl x (Number.lt_of_le_of_lt h h')

/-- What is in order is a number. -/
theorem isNaN_of_le (h : x ≤ y) : y.isNaN = false := by
  rw [le_iff_rank, compare_le_iff_le] at h
  rw [Bool.eq_false_iff, Ne, ← rank_eq_bot]
  exact fun hbot => h.1 (le_bot_iff.1 (hbot ▸ h.2))

theorem beq_self_of_le (h : x ≤ y) : (y == y) = true := by
  have hnumber := isNaN_of_le h
  have hy : rank y ≠ ⊥ := by
    rw [Ne, rank_eq_bot, hnumber]
    exact Bool.false_ne_true
  rw [beq_iff_order, order_eq_rank hnumber, if_neg hy,
    compare_eq_iff_eq.2 rfl]

/-- Numbers are in order one way or the other. -/
theorem lt_of_not_le (hx : x.isNaN = false) (hy : y.isNaN = false)
    (h : ¬ x ≤ y) : y < x := by
  rw [gt_iff_order]
  rw [le_iff_order, order, compare_eq_place hx hy] at h
  rw [order, compare_eq_place hx hy]
  cases hplace : compare (place x.toModel.unpack) (place y.toModel.unpack) with
  | gt => rfl
  | lt | eq => simp [hplace] at h

/-! ## NaN is in no order -/

theorem order_of_isNaN (h : x.isNaN = true ∨ y.isNaN = true) :
    order x y = none :=
  compare_of_isNaN h

theorem not_le_of_isNaN (h : x.isNaN = true ∨ y.isNaN = true) : ¬ x ≤ y := by
  rw [le_iff_order, order_of_isNaN h]
  exact (Or.elim · nofun nofun)

theorem isNaN_left_of_le (h : x ≤ y) : x.isNaN = false :=
  Bool.eq_false_iff.2 fun hx => not_le_of_isNaN (.inl hx) h

theorem isNaN_left_of_lt (h : x < y) : x.isNaN = false :=
  isNaN_left_of_le (Number.le_of_lt h)

protected theorem le_refl (hx : x.isNaN = false) : x ≤ x := by
  by_contra h
  exact Number.lt_irrefl x (lt_of_not_le hx hx h)

theorem beq_of_isNaN (h : x.isNaN = true) : (x == y) = false := by
  rw [Bool.eq_false_iff, Ne, beq_iff_order, order_of_isNaN (.inl h)]
  exact nofun

end MapStyle.Number
