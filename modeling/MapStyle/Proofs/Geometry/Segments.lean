import Mathlib.Algebra.Order.Field.Basic
import Mathlib.Tactic.LinearCombination
import Mathlib.Tactic.Linarith
import Mathlib.Tactic.Ring
import MapStyle.Geometry.Planar

/-!
# Points on segments

The tests on segments are signs of products. Here they are compared with what
they stand for, over exact numbers: the points of a segment are those `along`
it, and two segments cross where they have a point in common that is an end of
neither (`segmentsCross_of_along`).

Segments that run along each other never cross. If they have a point in common,
an end of one of them lies on the other (`end_on_of_parallel`).
-/

namespace MapStyle.Geometry

attribute [ext] Position

section Along

variable {α : Type} [Field α] (a b : Position α)

/-- The point at `t` on the way from `a` to `b`. -/
def along (t : α) : Position α :=
  ⟨a.x + (b.x - a.x) * t, a.y + (b.y - a.y) * t⟩

theorem along_zero : along a b 0 = a := by
  ext <;> simp [along]

theorem along_one : along a b 1 = b := by
  ext <;> simp [along]

theorem along_along (s t : α) :
    along a (along a b s) t = along a b (s * t) := by
  ext <;> simp only [along] <;> ring

theorem along_reverse (t : α) : along b a t = along a b (1 - t) := by
  ext <;> simp only [along] <;> ring

theorem along_x (t : α) : (along a b t).x = (1 - t) * a.x + t * b.x := by
  simp only [along]
  ring

theorem along_y (t : α) : (along a b t).y = (1 - t) * a.y + t * b.y := by
  simp only [along]
  ring

theorem side_along (p q : Position α) (t : α) :
    side p q (along a b t) = (1 - t) * side p q a + t * side p q b := by
  simp only [side, along]
  ring

end Along

variable {α : Type} [Field α] [LinearOrder α] {a b c d p q z : Position α}

/-- `p` lies on the segment from `a` to `b`, whose ends belong to it. -/
def OnSegment (a b p : Position α) : Prop :=
  ∃ t, 0 ≤ t ∧ t ≤ 1 ∧ along a b t = p

/-- Two segments that have no point in common. -/
def Apart (a b c d : Position α) : Prop :=
  ∀ z, OnSegment a b z → ¬ OnSegment c d z

variable [IsStrictOrderedRing α]

section Mix

variable {w x y t : α}

theorem mix_le (ht : 0 ≤ t) (ht' : t ≤ 1) (hx : x ≤ w) (hy : y ≤ w) :
    (1 - t) * x + t * y ≤ w :=
  calc (1 - t) * x + t * y ≤ (1 - t) * w + t * w :=
        add_le_add (mul_le_mul_of_nonneg_left hx (sub_nonneg.2 ht'))
          (mul_le_mul_of_nonneg_left hy ht)
    _ = w := by ring

theorem le_mix (ht : 0 ≤ t) (ht' : t ≤ 1) (hx : w ≤ x) (hy : w ≤ y) :
    w ≤ (1 - t) * x + t * y := by
  have := mix_le ht ht' (neg_le_neg hx) (neg_le_neg hy)
  linarith

theorem mix_lt (ht : 0 ≤ t) (ht' : t ≤ 1) (hx : x < w) (hy : y < w) :
    (1 - t) * x + t * y < w :=
  (mix_le ht ht' (le_max_left x y) (le_max_right x y)).trans_lt (max_lt hx hy)

theorem lt_mix (ht : 0 ≤ t) (ht' : t ≤ 1) (hx : w < x) (hy : w < y) :
    w < (1 - t) * x + t * y :=
  (lt_min hx hy).trans_le (le_mix ht ht' (min_le_left x y) (min_le_right x y))

end Mix

theorem onSegment_first (a b : Position α) : OnSegment a b a :=
  ⟨0, le_rfl, zero_le_one, along_zero a b⟩

theorem onSegment_second (a b : Position α) : OnSegment a b b :=
  ⟨1, zero_le_one, le_rfl, along_one a b⟩

theorem OnSegment.symm (h : OnSegment a b p) : OnSegment b a p := by
  obtain ⟨t, hpos, hle, rfl⟩ := h
  refine ⟨1 - t, sub_nonneg.2 hle, sub_le_self 1 hpos, ?_⟩
  rw [along_reverse, sub_sub_cancel]

omit [IsStrictOrderedRing α] in
/-- A point of a segment is inside of it unless it is one of the ends. -/
theorem OnSegment.exists_along (h : OnSegment a b z) (ha : z ≠ a)
    (hb : z ≠ b) : ∃ t, 0 < t ∧ t < 1 ∧ along a b t = z := by
  obtain ⟨t, hpos, hle, rfl⟩ := h
  refine ⟨t, hpos.lt_of_ne ?_, hle.lt_of_ne ?_, rfl⟩
  · rintro rfl
    exact ha (along_zero a b)
  · rintro rfl
    exact hb (along_one a b)

theorem Apart.symm (h : Apart a b c d) : Apart b a c d :=
  fun z hz => h z hz.symm

/-- With two points a segment contains all that lie between them. -/
theorem onSegment_along {t : α} (hc : OnSegment a b c) (hd : OnSegment a b d)
    (ht : 0 ≤ t) (ht' : t ≤ 1) : OnSegment a b (along c d t) := by
  obtain ⟨u, hu, hu', rfl⟩ := hc
  obtain ⟨v, hv, hv', rfl⟩ := hd
  refine ⟨(1 - t) * u + t * v, le_mix ht ht' hu hv, mix_le ht ht' hu' hv', ?_⟩
  ext <;> simp only [along] <;> ring

/-- The test of a point against an edge finds all points of the edge. -/
theorem onEdge_of_onSegment [BEq α] [LawfulBEq α] (h : OnSegment a b p) :
    onEdge p a b = true := by
  obtain ⟨t, hpos, hle, rfl⟩ := h
  have hsign (u : α) : u * t * (u * t - u) ≤ 0 := by
    have : u * t * (u * t - u) = -(u * u * (t * (1 - t))) := by ring
    rw [this, neg_nonpos]
    exact mul_nonneg (mul_self_nonneg u)
      (mul_nonneg hpos (sub_nonneg.2 hle))
  simp only [onEdge, along, Bool.and_eq_true, beq_iff_eq]
  refine ⟨⟨by ring, decide_eq_true ?_⟩, decide_eq_true ?_⟩
  · refine le_of_eq_of_le ?_ (hsign (b.x - a.x))
    ring
  · refine le_of_eq_of_le ?_ (hsign (b.y - a.y))
    ring

/-! ## Crossing -/

/-- The cross product of the directions of two segments, zero where they are
parallel. -/
def skew (a b c d : Position α) : α :=
  (d.x - c.x) * (b.y - a.y) - (d.y - c.y) * (b.x - a.x)

omit [LinearOrder α] [IsStrictOrderedRing α] in
theorem skew_swap (a b c d : Position α) : skew c d a b = -skew a b c d := by
  simp only [skew]
  ring

omit [LinearOrder α] [IsStrictOrderedRing α] in
theorem side_sub_side (a b c d : Position α) :
    side c d b - side c d a = skew a b c d := by
  simp only [side, skew]
  ring

omit [LinearOrder α] [IsStrictOrderedRing α] in
theorem side_along_self (c d : Position α) (t : α) :
    side c d (along c d t) = 0 := by
  simp only [side, along]
  ring

omit [IsStrictOrderedRing α] in
theorem opposite_iff {x y : α} :
    opposite x y = true ↔ (0 < x ∧ y < 0) ∨ (x < 0 ∧ 0 < y) := by
  simp only [opposite, Bool.or_eq_true, Bool.and_eq_true, decide_eq_true_eq]

omit [IsStrictOrderedRing α] in
theorem ne_of_opposite {x y : α} (h : opposite x y = true) : x ≠ y := by
  rcases opposite_iff.1 h with ⟨hx, hy⟩ | ⟨hx, hy⟩
  · exact (hy.trans hx).ne'
  · exact (hx.trans hy).ne

/-- Numbers of opposite signs have zero between them. -/
theorem div_sub_mem_of_opposite {x y : α} (h : opposite x y = true) :
    0 < x / (x - y) ∧ x / (x - y) < 1 := by
  rcases opposite_iff.1 h with ⟨hx, hy⟩ | ⟨hx, hy⟩
  · have hpos : 0 < x - y := sub_pos.2 (hy.trans hx)
    exact ⟨div_pos hx hpos, (div_lt_one hpos).2 (by linarith)⟩
  · have hneg : x - y < 0 := sub_neg.2 (hx.trans hy)
    exact ⟨div_pos_of_neg_of_neg hx hneg,
      (div_lt_one_of_neg hneg).2 (by linarith)⟩

theorem exists_mix_of_opposite {x y : α} (h : opposite x y = true) :
    ∃ t, 0 < t ∧ t < 1 ∧ (1 - t) * x + t * y = 0 := by
  obtain ⟨hpos, hlt⟩ := div_sub_mem_of_opposite h
  refine ⟨x / (x - y), hpos, hlt, ?_⟩
  linear_combination -div_mul_cancel₀ x (sub_ne_zero.2 (ne_of_opposite h))

/-- Where a mix of two different numbers is zero, they have opposite signs. -/
theorem opposite_of_mix {x y t : α} (ht : 0 < t) (ht' : t < 1) (hne : x ≠ y)
    (hzero : (1 - t) * x + t * y = 0) : opposite x y = true := by
  have ht' : 0 < 1 - t := sub_pos.2 ht'
  have hx : x = t * (x - y) := by linear_combination hzero
  have hy : y = (1 - t) * (y - x) := by linear_combination hzero
  rcases hne.lt_or_gt with hlt | hgt
  · exact opposite_iff.2 (.inr ⟨hx.trans_lt
      (mul_neg_of_pos_of_neg ht (sub_neg.2 hlt)),
      (mul_pos ht' (sub_pos.2 hlt)).trans_eq hy.symm⟩)
  · exact opposite_iff.2 (.inl ⟨(mul_pos ht (sub_pos.2 hgt)).trans_eq hx.symm,
      hy.trans_lt (mul_neg_of_pos_of_neg ht' (sub_neg.2 hgt))⟩)

/-- Where segments that are not parallel meet inside the first one, its ends lie
on different sides of the second one. -/
theorem opposite_sides {s : α} (hs : 0 < s) (hs' : s < 1)
    (hskew : skew a b c d ≠ 0) (hzero : side c d (along a b s) = 0) :
    opposite (side c d a) (side c d b) = true := by
  refine opposite_of_mix hs hs' ?_ ((side_along a b c d s).symm.trans hzero)
  rw [← side_sub_side, sub_ne_zero] at hskew
  exact hskew.symm

theorem opposite_neg (x y : α) : opposite (-x) (-y) = opposite x y := by
  rw [Bool.eq_iff_iff, opposite_iff, opposite_iff, neg_pos, neg_pos,
    neg_lt_zero, neg_lt_zero]
  exact or_comm

theorem separates_eq (a b c d : Position α) :
    separates a b c d = opposite (side c d a) (side c d b) := by
  rw [separates, ← opposite_neg]
  congr 1 <;> simp only [side] <;> ring

omit [IsStrictOrderedRing α] in
/-- A segment with its ends on different sides of a line is not parallel to
it. -/
theorem skew_ne_zero (h : opposite (side c d a) (side c d b) = true) :
    skew a b c d ≠ 0 := by
  rw [← side_sub_side, sub_ne_zero]
  exact (ne_of_opposite h).symm

/-- Two segments cross if each has its ends on different sides of the other. -/
theorem segmentsCross_iff_opposite [BEq α] [LawfulBEq α] :
    segmentsCross a b c d = true ↔
      opposite (side c d a) (side c d b) = true ∧
        opposite (side a b c) (side a b d) = true := by
  rw [segmentsCross, separates_eq, separates_eq]
  split
  · next hzero =>
    exact iff_of_false Bool.false_ne_true
      fun h => skew_ne_zero h.1 (beq_iff_eq.1 hzero)
  · rw [Bool.and_eq_true]

/-- Segments that are not parallel cross where they have a point in common that
is an end of neither. -/
theorem segmentsCross_of_along [BEq α] [LawfulBEq α] {s t : α} (hs : 0 < s)
    (hs' : s < 1) (ht : 0 < t) (ht' : t < 1) (h : along a b s = along c d t)
    (hskew : skew a b c d ≠ 0) : segmentsCross a b c d = true := by
  refine segmentsCross_iff_opposite.2
    ⟨opposite_sides hs hs' hskew ?_, opposite_sides ht ht' ?_ ?_⟩
  · rw [h, side_along_self]
  · rw [skew_swap]
    exact neg_ne_zero.2 hskew
  · rw [← h, side_along_self]

/-! ## Segments along each other -/

omit [LinearOrder α] [IsStrictOrderedRing α] in
/-- A vector that is parallel to another one is a multiple of it, if that is not
zero. -/
theorem exists_multiple (hab : a ≠ b) (hskew : skew a b c d = 0) :
    ∃ k, d.x - c.x = (b.x - a.x) * k ∧ d.y - c.y = (b.y - a.y) * k := by
  rw [skew, sub_eq_zero] at hskew
  by_cases hx : b.x - a.x = 0
  · have hy : b.y - a.y ≠ 0 := fun hy =>
      hab (Position.ext (sub_eq_zero.1 hx).symm (sub_eq_zero.1 hy).symm)
    refine ⟨(d.y - c.y) / (b.y - a.y), ?_, ?_⟩
    · rw [hx, mul_zero] at hskew
      rw [hx, zero_mul]
      exact (mul_eq_zero.1 hskew).resolve_right hy
    · rw [mul_div_cancel₀ _ hy]
  · refine ⟨(d.x - c.x) / (b.x - a.x), ?_, ?_⟩
    · rw [mul_div_cancel₀ _ hx]
    · rw [mul_div_assoc', mul_comm, hskew, mul_div_cancel_right₀ _ hx]

/-- A point at `s` on one segment and at `t` on another one that is `k` times as
long tells where the ends of the other one lie. -/
theorem along_of_multiple {k s t : α} (hx : d.x - c.x = (b.x - a.x) * k)
    (hy : d.y - c.y = (b.y - a.y) * k) (h : along a b s = along c d t) (u : α) :
    along c d u = along a b (s + (u - t) * k) := by
  obtain ⟨hx', hy'⟩ := Position.ext_iff.1 h
  simp only [along] at hx' hy'
  ext <;> simp only [along]
  · linear_combination (u - t) * hx - hx'
  · linear_combination (u - t) * hy - hy'

/-- If an interval has a point in common with the one from zero to one, and
neither of its ends is in that, it contains zero. -/
theorem exists_mix_eq_zero {x y t : α} (ht : 0 ≤ t) (ht' : t ≤ 1)
    (hmix : 0 ≤ (1 - t) * x + t * y) (hmix' : (1 - t) * x + t * y ≤ 1)
    (hx : ¬ (0 ≤ x ∧ x ≤ 1)) (hy : ¬ (0 ≤ y ∧ y ≤ 1)) :
    ∃ u, 0 ≤ u ∧ u ≤ 1 ∧ (1 - u) * x + u * y = 0 := by
  have hends : opposite x y = true := by
    rw [not_and_or, not_le, not_le] at hx hy
    rcases hx with hx | hx <;> rcases hy with hy | hy
    · exact absurd (mix_lt ht ht' hx hy) hmix.not_gt
    · exact opposite_iff.2 (.inr ⟨hx, zero_lt_one.trans hy⟩)
    · exact opposite_iff.2 (.inl ⟨zero_lt_one.trans hx, hy⟩)
    · exact absurd (lt_mix ht ht' hx hy) hmix'.not_gt
  obtain ⟨u, hpos, hlt, hzero⟩ := exists_mix_of_opposite hends
  exact ⟨u, hpos.le, hlt.le, hzero⟩

/-- If parallel segments have a point in common, an end of the second lies on
the first or the first one starts on the second. -/
theorem end_on_of_parallel (hskew : skew a b c d = 0)
    (hab : OnSegment a b z) (hcd : OnSegment c d z) :
    OnSegment a b c ∨ OnSegment a b d ∨ OnSegment c d a := by
  by_cases hne : a = b
  · obtain ⟨s, -, -, rfl⟩ := hab
    subst hne
    refine .inr (.inr ?_)
    convert hcd
    ext <;> simp [along]
  obtain ⟨k, hx, hy⟩ := exists_multiple hne hskew
  obtain ⟨s, hs, hs', rfl⟩ := hab
  obtain ⟨t, ht, ht', h⟩ := hcd
  -- The second segment runs from `s - t * k` to `s + (1 - t) * k` on the first.
  have hpoint := along_of_multiple hx hy h.symm
  by_cases hc : 0 ≤ s - t * k ∧ s - t * k ≤ 1
  · refine .inl ⟨s - t * k, hc.1, hc.2, ?_⟩
    rw [← along_zero c d, hpoint 0]
    congr 1
    ring
  by_cases hd : 0 ≤ s + (1 - t) * k ∧ s + (1 - t) * k ≤ 1
  · refine .inr (.inl ⟨s + (1 - t) * k, hd.1, hd.2, ?_⟩)
    rw [← along_one c d, hpoint 1]
  have hmix : (1 - t) * (s - t * k) + t * (s + (1 - t) * k) = s := by ring
  obtain ⟨u, hu, hu', hzero⟩ :=
    exists_mix_eq_zero ht ht' (hs.trans_eq hmix.symm) (hmix.trans_le hs') hc hd
  refine .inr (.inr ⟨u, hu, hu', ?_⟩)
  calc along c d u = along a b (s + (u - t) * k) := hpoint u
    _ = along a b 0 := congrArg (along a b) (by linear_combination hzero)
    _ = a := along_zero a b

end MapStyle.Geometry
