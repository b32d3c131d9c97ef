import MapStyle.Proofs.Number.Rank

/-!
# Orders in which some values have no place

Doubles are in order except for NaN, exact numbers without exception. `Ordered`
is what both have in common, so that a law of a search holds of the search that
the program makes and of its exact reading.
-/

namespace MapStyle.Number

/-- An order in which some values have no place. Those are in no relation, not
even to themselves. -/
class Ordered (α : Type) [LT α] [LE α] [BEq α] : Prop where
  le_of_lt {x y : α} (h : x < y) : x ≤ y
  lt_of_lt_of_le {x y z : α} (h : x < y) (h' : y ≤ z) : x < z
  not_lt_of_le {x y : α} (h : x ≤ y) : ¬ y < x
  /-- Two values above a third one are in order one way or the other. -/
  lt_of_not_le {x y z : α} (hx : z ≤ x) (hy : z ≤ y) (h : ¬ x ≤ y) : y < x
  le_refl_of_le {x y : α} (h : x ≤ y) : x ≤ x
  beq_refl_of_le {x y : α} (h : x ≤ y) : (y == y) = true

instance : Ordered Float where
  le_of_lt := Number.le_of_lt
  lt_of_lt_of_le := Number.lt_of_lt_of_le
  not_lt_of_le := Number.not_lt_of_le
  lt_of_not_le hx hy h := lt_of_not_le (isNaN_of_le hx) (isNaN_of_le hy) h
  le_refl_of_le h := Number.le_refl (isNaN_left_of_le h)
  beq_refl_of_le := beq_self_of_le

instance {α : Type} [LinearOrder α] [BEq α] [LawfulBEq α] : Ordered α where
  le_of_lt h := h.le
  lt_of_lt_of_le h h' := h.trans_le h'
  not_lt_of_le h := h.not_gt
  lt_of_not_le _ _ h := lt_of_not_ge h
  le_refl_of_le _ := le_rfl
  beq_refl_of_le _ := BEq.rfl

theorem Ordered.lt_trans {α : Type} [LT α] [LE α] [BEq α] [Ordered α]
    {x y z : α} (h : x < y) (h' : y < z) : x < z :=
  lt_of_lt_of_le h (le_of_lt h')

end MapStyle.Number
