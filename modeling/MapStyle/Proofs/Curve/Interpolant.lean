import Mathlib.Algebra.Order.Field.Basic
import Mathlib.Tactic.Ring
import MapStyle.Color.Basic
import MapStyle.Proofs.Curve.Locate
import MapStyle.Proofs.Semantics.Checks

/-!
# Curves through numbers

A linear interpolation between numeric outputs is a curve through its stops.
`linear?` is this curve over any kind of number, doubles (`interpolate_eq`) and
exact numbers alike. Its exact reading is the piecewise linear interpolant of
the stops (`interpolant_linear?`): it meets each of them, runs straight between
two neighbours and is level outside of all.

Nothing has to be known of the outputs for that. The labels have to ascend.
-/

namespace MapStyle.Curve

open Interpolation (linearFactor)

section

variable {α : Type} [Add α] [Sub α] [Mul α] [Div α] [Zero α] [One α] [LE α]
  [DecidableLE α] [BEq α]

/-- The curve through stops with numeric outputs, which are blended in
proportion between two stops. There is none through no stops, and none over an
input that is in no order with the labels. -/
def linear? (stops : List (α × α)) (x : α) : Option α :=
  match stops with
  | [(_, y)] => some y
  | stops =>
    match locate stops x with
    | .stop y => some y
    | .between lower upper y z => some (blend y z (linearFactor x lower upper))
    | .unordered | .nowhere => none

theorem linear?_several (a b : α × α) (rest : List (α × α)) (x : α) :
    linear? (a :: b :: rest) x =
      match locate (a :: b :: rest) x with
      | .stop y => some y
      | .between lower upper y z =>
          some (blend y z (linearFactor x lower upper))
      | .unordered | .nowhere => none := by
  rfl

omit [Add α] [Sub α] [Mul α] [Div α] [Zero α] [One α] in
/-- Among some stops, every input that is in order with them has a place. -/
theorem locate_ne_nowhere {β : Type} (a : α × β) (rest : List (α × β)) (x : α) :
    locate (a :: rest) x ≠ .nowhere := by
  rw [locate]
  dsimp only
  intro h
  split at h
  · cases h
  · split at h
    · cases h
    · split at h
      · cases h
      · split at h <;> cases h

end

end MapStyle.Curve

namespace MapStyle.Semantics

open Curve

/-- An output that is a number. -/
def IsNumber (y : Float) (o : Outcome) : Prop :=
  o = .ok (.number y)

/-- The outcome of a linear interpolation with numeric outputs is on the curve
through its stops, where there is one. -/
theorem interpolate_eq (space : ColorSpace) {stops : List (Float × Float)}
    {outcomes : List (Float × Outcome)} (hstops : stops ≠ [])
    (h : List.Forall₂ (SameKey IsNumber) stops outcomes) (x : Float) :
    interpolate .number space .linear (.ok (.number x)) outcomes =
      match linear? stops x with
      | some y => .ok (.number y)
      | none => .error .inputNotANumber := by
  cases h with
  | nil => exact absurd rfl hstops
  | @cons a p rest rest' ha hrest =>
      cases hrest with
      | nil => exact ha.2
      | @cons b q rest rest' hb hrest =>
          have hplace := locate_ne_nowhere a (b :: rest) x
          have hspot := locate_related (.cons ha (.cons hb hrest)) x
          rw [interpolate_several, linear?_several]
          generalize locate (a :: b :: rest) x = spot at hplace hspot ⊢
          generalize locate (p :: q :: rest') x = spot' at hspot ⊢
          cases hspot with
          | nowhere => exact absurd rfl hplace
          | unordered => rfl
          | stop hy => exact hy
          | between hy hz =>
              rw [IsNumber] at hy hz
              rw [hy, hz]
              rfl

end MapStyle.Semantics

namespace MapStyle.Curve

open Interpolation (linearFactor)

variable {α : Type} [Field α]

/-! ## Straight lines -/

/-- The straight line through two points. -/
def segment (a b : α × α) (x : α) : α :=
  a.2 + (b.2 - a.2) * ((x - a.1) / (b.1 - a.1))

theorem blend_linearFactor [BEq α] [LawfulBEq α] {a b : α × α}
    (h : a.1 ≠ b.1) (x : α) :
    blend a.2 b.2 (linearFactor x a.1 b.1) = segment a b x := by
  have hne : ¬ (b.1 - a.1 == 0) = true := by
    rw [beq_iff_eq]
    exact sub_ne_zero.2 h.symm
  rw [linearFactor, if_neg hne, blend, segment]
  ring

theorem segment_first (a b : α × α) : segment a b a.1 = a.2 := by
  rw [segment, sub_self, zero_div, mul_zero, add_zero]

theorem segment_second {a b : α × α} (h : a.1 ≠ b.1) :
    segment a b b.1 = b.2 := by
  rw [segment, div_self (sub_ne_zero.2 h.symm), mul_one, add_sub_cancel]

/-! ## Where the curve runs -/

variable [LinearOrder α] {a b : α × α} {x x' : α}

section Places

variable [BEq α] [LawfulBEq α] {stops : List (α × α)} {i : ℕ} {z : α × α}

omit [LawfulBEq α] in
theorem linear?_before (ha : stops.head? = some a) (hx : x ≤ a.1) :
    linear? stops x = some a.2 := by
  rcases stops with _ | ⟨_, _ | ⟨b, rest⟩⟩
  · cases ha
  all_goals obtain rfl := Option.some.inj ha
  · rfl
  · rw [linear?_several, locate_first hx]

omit [Field α] [LinearOrder α] [BEq α] [LawfulBEq α] in
theorem getLast?_of_getElem?_none (ha : stops[i]? = some a)
    (hend : stops[i + 1]? = none) : stops.getLast? = some a := by
  obtain ⟨hi, -⟩ := List.getElem?_eq_some_iff.1 ha
  rw [List.getElem?_eq_none_iff] at hend
  obtain rfl : i = stops.length - 1 := by omega
  rw [List.getLast?_eq_getElem?, ha]

variable (h : (stops.map Prod.fst).Pairwise (· < ·))

include h

omit [LawfulBEq α] in
theorem linear?_after (hz : stops.getLast? = some z) (hx : z.1 ≤ x) :
    linear? stops x = some z.2 := by
  rcases stops with _ | ⟨first, _ | ⟨b, rest⟩⟩
  · cases hz
  · obtain rfl := Option.some.inj hz
    rfl
  · have hlast := getElem?_length first (b :: rest)
    obtain rfl : (b :: rest).getLastD first = z := by
      rw [List.getLast?_eq_getElem?] at hz
      exact Option.some.inj (hlast.symm.trans hz)
    have hlow : ¬ x ≤ first.1 := by
      refine not_le_of_gt (lt_of_lt_of_le ?_ hx)
      exact lt_of_ascending h (j := 0) rfl hlast (by simp)
    rw [linear?_several, locate_last hlow hx]

theorem linear?_between (ha : stops[i]? = some a) (hb : stops[i + 1]? = some b)
    (hax : a.1 ≤ x) (hxb : x < b.1) :
    linear? stops x = some (segment a b x) := by
  have hab := hax.trans_lt hxb
  rcases stops with _ | ⟨first, _ | ⟨second, rest⟩⟩
  · cases ha
  · cases hb
  · by_cases hlow : x ≤ first.1
    · have hzero : i = 0 := by
        by_contra hpos
        have hbefore := lt_of_ascending h (t := first) (j := 0) rfl ha
          (Nat.pos_of_ne_zero hpos)
        exact absurd (hlow.trans_lt hbefore) hax.not_gt
      subst hzero
      obtain rfl := Option.some.inj ha
      obtain rfl : x = first.1 := le_antisymm hlow hax
      rw [linear?_before rfl hlow, segment_first]
    · rw [linear?_several, locate_reached h hlow ha hax hb hxb]
      exact congrArg some (blend_linearFactor hab.ne x)

/-- The curve meets its stops. -/
theorem linear?_label (ha : stops[i]? = some a) :
    linear? stops a.1 = some a.2 := by
  cases hb : stops[i + 1]? with
  | some b =>
      have hab := lt_of_ascending h ha hb i.lt_succ_self
      rw [linear?_between h ha hb le_rfl hab, segment_first]
  | none =>
      exact linear?_after h (getLast?_of_getElem?_none ha hb) le_rfl

/-- Between two neighbouring stops, both included, the curve is the straight
line through them. -/
theorem linear?_segment (ha : stops[i]? = some a) (hb : stops[i + 1]? = some b)
    (hax : a.1 ≤ x) (hxb : x ≤ b.1) :
    linear? stops x = some (segment a b x) := by
  rcases hxb.lt_or_eq with hlt | rfl
  · exact linear?_between h ha hb hax hlt
  · have hab := lt_of_ascending h ha hb i.lt_succ_self
    rw [linear?_label h hb, segment_second hab.ne]

theorem linear?_defined (hstops : stops ≠ []) (x : α) :
    ∃ y, linear? stops x = some y := by
  cases stops with
  | nil => exact absurd rfl hstops
  | cons first rest =>
      by_cases hlow : x ≤ first.1
      · exact ⟨_, linear?_before rfl hlow⟩
      · obtain ⟨i, a, ha, hax, hnext⟩ :=
          exists_last_reached h (le_of_not_ge hlow)
        cases hb : (first :: rest)[i + 1]? with
        | some b => exact ⟨_, linear?_between h ha hb hax (hnext b hb)⟩
        | none =>
            exact ⟨a.2, linear?_after h (getLast?_of_getElem?_none ha hb) hax⟩

end Places

/-! ## The interpolant -/

variable [IsStrictOrderedRing α]

theorem progress_le (h : a.1 < b.1) (hx : x ≤ x') :
    (x - a.1) / (b.1 - a.1) ≤ (x' - a.1) / (b.1 - a.1) :=
  div_le_div_of_nonneg_right (sub_le_sub_right hx _) (sub_nonneg.2 h.le)

theorem segment_le (h : a.1 < b.1) (hx : x ≤ x') (hup : a.2 ≤ b.2) :
    segment a b x ≤ segment a b x' :=
  add_le_add_right
    (mul_le_mul_of_nonneg_left (progress_le h hx) (sub_nonneg.2 hup)) _

theorem segment_ge (h : a.1 < b.1) (hx : x ≤ x') (hdown : b.2 ≤ a.2) :
    segment a b x' ≤ segment a b x :=
  add_le_add_right
    (mul_le_mul_of_nonpos_left (progress_le h hx) (sub_nonpos.2 hdown)) _

/-- Between its two points, a straight line is between them in height. -/
theorem segment_mem (h : a.1 < b.1) (hax : a.1 ≤ x) (hxb : x ≤ b.1) :
    min a.2 b.2 ≤ segment a b x ∧ segment a b x ≤ max a.2 b.2 := by
  have hfirst := segment_first a b
  have hsecond := segment_second h.ne
  rcases le_total a.2 b.2 with hup | hdown
  · rw [min_eq_left hup, max_eq_right hup]
    constructor
    · exact hfirst ▸ segment_le h hax hup
    · exact hsecond ▸ segment_le h hxb hup
  · rw [min_eq_right hdown, max_eq_left hdown]
    constructor
    · exact hsecond ▸ segment_ge h hxb hdown
    · exact hfirst ▸ segment_ge h hax hdown

/-- A function runs through the stops in straight lines, and is level before the
first of them and after the last. -/
structure Interpolant (stops : List (α × α)) (f : α → Option α) : Prop where
  defined : ∀ x, ∃ y, f x = some y
  before : ∀ a, stops.head? = some a → ∀ x ≤ a.1, f x = some a.2
  after : ∀ z, stops.getLast? = some z → ∀ x, z.1 ≤ x → f x = some z.2
  label : ∀ s ∈ stops, f s.1 = some s.2
  between : ∀ i a b, stops[i]? = some a → stops[i + 1]? = some b →
    ∀ x y, a.1 ≤ x → x ≤ b.1 → f x = some y →
      min a.2 b.2 ≤ y ∧ y ≤ max a.2 b.2 ∧ y = segment a b x
  monotone : ∀ i a b, stops[i]? = some a → stops[i + 1]? = some b →
    ∀ x x' y y', a.1 ≤ x → x ≤ x' → x' ≤ b.1 → f x = some y →
      f x' = some y' → (a.2 ≤ b.2 → y ≤ y') ∧ (b.2 ≤ a.2 → y' ≤ y)

/-- The curve through stops with ascending labels is their piecewise linear
interpolant. -/
theorem interpolant_linear? [BEq α] [LawfulBEq α] {stops : List (α × α)}
    (h : (stops.map Prod.fst).Pairwise (· < ·)) (hstops : stops ≠ []) :
    Interpolant stops (linear? stops) where
  defined := linear?_defined h hstops
  before _ ha _ hx := linear?_before ha hx
  after _ hz _ hx := linear?_after h hz hx
  label s hs := by
    obtain ⟨i, hi⟩ := List.mem_iff_getElem?.1 hs
    exact linear?_label h hi
  between i a b ha hb x y hax hxb hy := by
    have hab := lt_of_ascending h ha hb i.lt_succ_self
    rw [linear?_segment h ha hb hax hxb] at hy
    obtain rfl := Option.some.inj hy
    obtain ⟨hmin, hmax⟩ := segment_mem hab hax hxb
    exact ⟨hmin, hmax, rfl⟩
  monotone i a b ha hb x x' y y' hax hxx' hxb hy hy' := by
    have hab := lt_of_ascending h ha hb i.lt_succ_self
    rw [linear?_segment h ha hb hax (hxx'.trans hxb)] at hy
    rw [linear?_segment h ha hb (hax.trans hxx') hxb] at hy'
    obtain rfl := Option.some.inj hy
    obtain rfl := Option.some.inj hy'
    exact ⟨segment_le hab hxx', segment_ge hab hxx'⟩

end MapStyle.Curve
