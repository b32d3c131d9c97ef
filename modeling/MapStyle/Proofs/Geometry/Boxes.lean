import Mathlib.Order.MinMax
import Mathlib.Tactic.Tauto
import MapStyle.Geometry.Box

/-!
# Boxes around points

Growing a box by points is the least that makes it hold them. Over exact numbers
this comes down to two statements: a box contains what another one has grown to
if it contains the other one and all the points (`contains_extendAll`), and the
same without touching its sides (`inside_extendAll`).

The box to grow from is one turned inside out, so that the first point replaces
all of its sides: `Box.empty` for doubles, and for exact numbers any box that is
`Beyond` the points in question.
-/

namespace MapStyle

namespace Number

variable {α : Type} [LinearOrder α] [BEq α] [LawfulBEq α] (a b : α)

theorem lesser_eq_min : lesser a b = min a b := by
  rw [lesser, min_comm, min_def_lt]
  simp

theorem greater_eq_max : greater a b = max a b := by
  rw [greater, max_def_lt]
  simp

end Number

namespace Geometry.Box

variable {α : Type} [LinearOrder α] {box outer : Box α} {p : Position α}
  {ps : List (Position α)}

/-- Whether a point is in a box, where the sides belong to it. -/
def Holds (box : Box α) (p : Position α) : Prop :=
  (box.minX ≤ p.x ∧ p.x ≤ box.maxX) ∧ box.minY ≤ p.y ∧ p.y ≤ box.maxY

/-- Whether a point is in a box and not on its sides. -/
def Surrounds (box : Box α) (p : Position α) : Prop :=
  (box.minX < p.x ∧ p.x < box.maxX) ∧ box.minY < p.y ∧ p.y < box.maxY

/-- Whether a box is part of another one, which it may touch. -/
def Contains (outer box : Box α) : Prop :=
  (outer.minX ≤ box.minX ∧ box.maxX ≤ outer.maxX) ∧
    outer.minY ≤ box.minY ∧ box.maxY ≤ outer.maxY

/-- Whether all sides of a box are beyond the points, on the wrong side of
them. -/
def Beyond (box : Box α) (ps : List (Position α)) : Prop :=
  ∀ p ∈ ps, (p.x ≤ box.minX ∧ box.maxX ≤ p.x) ∧
    p.y ≤ box.minY ∧ box.maxY ≤ p.y

theorem contains_refl (box : Box α) : box.Contains box :=
  ⟨⟨le_rfl, le_rfl⟩, le_rfl, le_rfl⟩

theorem inside_iff : box.inside outer = true ↔
    (outer.minX < box.minX ∧ box.maxX < outer.maxX) ∧
      outer.minY < box.minY ∧ box.maxY < outer.maxY := by
  simp only [inside, Bool.and_eq_true, decide_eq_true_eq, and_assoc]

variable [BEq α] [LawfulBEq α]

theorem contains_extend : outer.Contains (box.extend p) ↔
    outer.Contains box ∧ outer.Holds p := by
  simp only [Contains, Holds, extend, Number.lesser_eq_min,
    Number.greater_eq_max, le_min_iff, max_le_iff]
  tauto

theorem contains_extendAll : outer.Contains (box.extendAll ps) ↔
    outer.Contains box ∧ ∀ p ∈ ps, outer.Holds p := by
  induction ps generalizing box with
  | nil => simp [extendAll]
  | cons p ps ih =>
      have hstep : box.extendAll (p :: ps) = (box.extend p).extendAll ps := rfl
      rw [hstep, ih, contains_extend, List.forall_mem_cons, and_assoc]

theorem holds_of_mem (h : p ∈ ps) : (box.extendAll ps).Holds p :=
  (contains_extendAll.1 (contains_refl _)).2 p h

theorem inside_extend : (box.extend p).inside outer = true ↔
    box.inside outer = true ∧ outer.Surrounds p := by
  simp only [inside_iff, Surrounds, extend, Number.lesser_eq_min,
    Number.greater_eq_max, lt_min_iff, max_lt_iff]
  tauto

theorem inside_extendAll : (box.extendAll ps).inside outer = true ↔
    box.inside outer = true ∧ ∀ p ∈ ps, outer.Surrounds p := by
  induction ps generalizing box with
  | nil => simp [extendAll]
  | cons p ps ih =>
      have hstep : box.extendAll (p :: ps) = (box.extend p).extendAll ps := rfl
      rw [hstep, ih, inside_extend, List.forall_mem_cons, and_assoc]

end Geometry.Box

end MapStyle
