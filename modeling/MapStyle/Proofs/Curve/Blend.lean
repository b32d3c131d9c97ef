import Mathlib.Algebra.Order.Field.Basic
import Mathlib.Tactic.Ring
import MapStyle.Proofs.Number.Nearest
import MapStyle.Proofs.Outcome
import MapStyle.Semantics.Curve

/-!
# What lies between two stops

The blend of two outputs, written out. Numbers are blended in proportion, arrays
of numbers item by item, and colors by their channels once these are weighed by
alpha. An array needs a partner of its own length, and a blend succeeds for
outputs of the right kind only (`blendOutputs_number_eq_ok`,
`blendOutputs_array_eq_ok`, `blendOutputs_color_eq_ok`).

At both ends of the way the blend is what stands there. For exact numbers this
is a matter of algebra. It holds of finite doubles as well, as none of the
products and sums has anything to round at an end (`value_blend_zero`,
`value_blend_one`). A color that cannot be seen is the exception: it has no
channels to come back to.
-/

namespace MapStyle

/-! ## Numbers at the ends -/

section Exact

variable {α : Type} [CommRing α]

theorem blend_zero (a b : α) : blend a b 0 = a := by
  rw [blend]
  ring

theorem blend_one (a b : α) : blend a b 1 = b := by
  rw [blend]
  ring

end Exact

namespace Number

variable {x y z : Float}

/-- What is a double already is not changed by rounding. -/
theorem RoundsTo.value_eq (h : RoundsTo (value y) x) :
    x.isFinite = true ∧ value x = value y := by
  have hy := representable_value y
  obtain ⟨hfinite, hnearest⟩ := h.nearest hy.abs le_rfl (abs_value_lt y)
  exact ⟨hfinite, hnearest.eq_self hy⟩

theorem value_mul_eq (hx : x.isFinite = true) (hy : y.isFinite = true)
    (h : value x * value y = value z) :
    (x * y).isFinite = true ∧ value (x * y) = value z :=
  RoundsTo.value_eq (h ▸ roundsTo_mul hx hy)

theorem value_add_eq (hx : x.isFinite = true) (hy : y.isFinite = true)
    (h : value x + value y = value z) :
    (x + y).isFinite = true ∧ value (x + y) = value z :=
  RoundsTo.value_eq (h ▸ roundsTo_add hx hy)

theorem value_zero : (0 : Float).isFinite = true ∧ value 0 = 0 :=
  value_ofNat_of_le (n := 0) (by norm_num)

theorem value_one : (1 : Float).isFinite = true ∧ value 1 = 1 :=
  value_ofNat_of_le (n := 1) (by norm_num)

end Number

section Doubles

open Number

variable {a b : Float}

theorem value_blend_zero (ha : a.isFinite = true) (hb : b.isFinite = true) :
    (blend a b 0).isFinite = true ∧ value (blend a b 0) = value a := by
  have hweight : (1 - 0 : Float) = 1 := by decide +kernel
  obtain ⟨hkept, hkept'⟩ := value_mul_eq (z := a) ha value_one.1
    (by rw [value_one.2, mul_one])
  obtain ⟨hgone, hgone'⟩ := value_mul_eq (z := 0) hb value_zero.1
    (by rw [value_zero.2, mul_zero])
  rw [blend, hweight]
  exact value_add_eq hkept hgone
    (by rw [hkept', hgone', value_zero.2, add_zero])

theorem value_blend_one (ha : a.isFinite = true) (hb : b.isFinite = true) :
    (blend a b 1).isFinite = true ∧ value (blend a b 1) = value b := by
  have hweight : (1 - 1 : Float) = 0 := by decide +kernel
  obtain ⟨hgone, hgone'⟩ := value_mul_eq (z := 0) ha value_zero.1
    (by rw [value_zero.2, mul_zero])
  obtain ⟨hkept, hkept'⟩ := value_mul_eq (z := b) hb value_one.1
    (by rw [value_one.2, mul_one])
  rw [blend, hweight]
  exact value_add_eq hgone hkept
    (by rw [hkept', hgone', value_zero.2, zero_add])

end Doubles

/-! ## Colors -/

namespace Rgba

/-- The channels of a color weighed by its alpha, and alpha. -/
def weighed {α : Type} [Mul α] (c : Rgba α) : List α :=
  [c.r * c.a, c.g * c.a, c.b * c.a, c.a]

variable {α : Type} [Field α] [BEq α] [LawfulBEq α] {x y : Rgba α} {t : α}

theorem mix_zero (y : Rgba α) (hx : x.a ≠ 0) : x.mix y 0 = x := by
  simp only [mix, blend_zero, beq_eq_false_iff_ne.2 hx, Bool.false_eq_true,
    if_false, mul_div_cancel_right₀ _ hx]

theorem mix_one (x : Rgba α) (hy : y.a ≠ 0) : x.mix y 1 = y := by
  simp only [mix, blend_one, beq_eq_false_iff_ne.2 hy, Bool.false_eq_true,
    if_false, mul_div_cancel_right₀ _ hy]

theorem weighed_mix_of_alpha (h : blend x.a y.a t ≠ 0) :
    (x.mix y t).weighed =
      List.zipWith (fun p q => blend p q t) x.weighed y.weighed := by
  simp only [mix, weighed, beq_eq_false_iff_ne.2 h, Bool.false_eq_true,
    if_false, div_mul_cancel₀ _ h, List.zipWith_cons_cons,
    List.zipWith_nil_left]

/-- Weighed by alpha, colors are blended channel by channel like numbers. -/
theorem weighed_mix [LinearOrder α] [IsStrictOrderedRing α] (hx : 0 ≤ x.a)
    (hy : 0 ≤ y.a) (ht : 0 ≤ t) (ht' : t ≤ 1) :
    (x.mix y t).weighed =
      List.zipWith (fun p q => blend p q t) x.weighed y.weighed := by
  by_cases h : blend x.a y.a t = 0
  · have hfirst := mul_nonneg hx (sub_nonneg.2 ht')
    have hsecond := mul_nonneg hy ht
    obtain ⟨hxa, hya⟩ := (add_eq_zero_iff_of_nonneg hfirst hsecond).1 h
    have hchannel (p q : α) : blend (p * x.a) (q * y.a) t = 0 := by
      rw [blend, mul_assoc, mul_assoc, hxa, hya, mul_zero, mul_zero, add_zero]
    simp only [mix, weighed, h, beq_self_eq_true, if_true, transparent,
      mul_zero, List.zipWith_cons_cons, List.zipWith_nil_left, hchannel]
  · exact weighed_mix_of_alpha h

end Rgba

/-! ## Outputs -/

namespace Semantics

variable {space : ColorSpace} {t : Float} {a b : Outcome} {v : Value}

theorem blendOutputs_number_eq_ok :
    blendOutputs .number space t a b = .ok v ↔
      ∃ x y, a = .ok (.number x) ∧ b = .ok (.number y) ∧
        v = .number (x * (1 - t) + y * t) := by
  constructor
  · intro h
    obtain ⟨x, hx, h⟩ := ok_of_bind h
    obtain ⟨y, hy, h⟩ := ok_of_bind h
    exact ⟨x, y, Outcome.number_ok hx, Outcome.number_ok hy,
      (ok_of_pure h).symm⟩
  · rintro ⟨x, y, rfl, rfl, rfl⟩
    rfl

theorem blendItems_map (t : Float) (xs ys : List Float) :
    blendItems t (xs.map .number) (ys.map .number) =
      .ok (List.zipWith (fun x y => .number (x * (1 - t) + y * t)) xs ys) := by
  induction xs generalizing ys with
  | nil => rfl
  | cons x xs ih =>
      cases ys with
      | nil => rfl
      | cons y ys =>
          rw [List.map_cons, List.map_cons, blendItems, ih]
          rfl

/-- Only numbers are blended. -/
theorem numbers_of_blendItems {xs ys zs : List Value}
    (hlength : xs.length = ys.length) (h : blendItems t xs ys = .ok zs) :
    ∃ ps qs : List Float, xs = ps.map .number ∧ ys = qs.map .number := by
  induction xs generalizing ys zs with
  | nil =>
      obtain rfl := List.length_eq_zero_iff.1 hlength.symm
      exact ⟨[], [], rfl, rfl⟩
  | cons x xs ih =>
      cases ys with
      | nil => cases hlength
      | cons y ys =>
          simp only [blendItems] at h
          split at h
          · next p q =>
              obtain ⟨rest, hrest, -⟩ := ok_of_bind h
              obtain ⟨ps, qs, rfl, rfl⟩ := ih (Nat.succ.inj hlength) hrest
              exact ⟨p :: ps, q :: qs, rfl, rfl⟩
          · cases h

theorem blendItems_eq_ok {xs ys zs : List Value}
    (hlength : xs.length = ys.length) :
    blendItems t xs ys = .ok zs ↔
      ∃ ps qs : List Float, xs = ps.map .number ∧ ys = qs.map .number ∧
        zs = List.zipWith (fun p q => .number (p * (1 - t) + q * t)) ps qs := by
  constructor
  · intro h
    obtain ⟨ps, qs, rfl, rfl⟩ := numbers_of_blendItems hlength h
    rw [blendItems_map] at h
    cases h
    exact ⟨ps, qs, rfl, rfl, rfl⟩
  · rintro ⟨ps, qs, rfl, rfl, rfl⟩
    exact blendItems_map t ps qs

theorem blendOutputs_array_eq_ok {item : Ty} {size : Option Nat} :
    blendOutputs (.array item size) space t a b = .ok v ↔
      ∃ ps qs : List Float, a = .ok (.array (ps.map .number)) ∧
        b = .ok (.array (qs.map .number)) ∧ ps.length = qs.length ∧
        v = .array
          (List.zipWith (fun p q => .number (p * (1 - t) + q * t)) ps qs) := by
  constructor
  · intro h
    obtain ⟨x, hx, h⟩ := ok_of_bind h
    obtain ⟨y, hy, h⟩ := ok_of_bind h
    split at h
    · next xs ys _ =>
        obtain ⟨hlength, h⟩ := ok_of_guard h
        have hlength : xs.length = ys.length := by simpa using hlength
        obtain ⟨zs, hzs, h⟩ := ok_of_bind h
        obtain rfl := ok_of_pure h
        obtain ⟨ps, qs, rfl, rfl, rfl⟩ := (blendItems_eq_ok hlength).1 hzs
        exact ⟨ps, qs, hx, hy, by simpa using hlength, rfl⟩
    · cases h
  · rintro ⟨ps, qs, rfl, rfl, hlength, rfl⟩
    have hsame : ((ps.map Value.number).length != (qs.map Value.number).length)
        = false := by
      rw [List.length_map, List.length_map, hlength, bne_self_eq_false]
    show (do
      if (ps.map Value.number).length != (qs.map Value.number).length then
        throw _
      return Value.array (← blendItems t _ _) : Outcome) = _
    rw [hsame, blendItems_map]
    rfl

theorem blendOutputs_color_eq_ok :
    blendOutputs .color space t a b = .ok v ↔
      ∃ x y, a = .ok (.color x) ∧ b = .ok (.color y) ∧
        v = .color (blendColors space t x y) := by
  constructor
  · intro h
    obtain ⟨x, hx, h⟩ := ok_of_bind h
    obtain ⟨y, hy, h⟩ := ok_of_bind h
    exact ⟨x, y, Outcome.color_ok hx, Outcome.color_ok hy, (ok_of_pure h).symm⟩
  · rintro ⟨x, y, rfl, rfl, rfl⟩
    rfl

end Semantics

end MapStyle
