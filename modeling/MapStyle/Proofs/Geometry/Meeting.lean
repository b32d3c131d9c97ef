import Mathlib.Tactic.FieldSimp
import MapStyle.Proofs.Geometry.Boxes
import MapStyle.Proofs.Geometry.Segments

/-!
# Where segments meet

The two tests of a pair of segments look at signs: on which side of one segment
the ends of the other lie. Over exact numbers they say what they are named
after. `segmentsMeet` holds of the segments that have a point in common, those
without length included, and `segmentsCross` of those that are not parallel and
have a point in common that is an end of neither.

Both rest on one fact: where each segment has its ends on different sides of the
line through the other, the lines meet inside both (`exists_meeting_point`).
What remains are points that are ends, and there a point is on a segment when it
is on its line and in the box that it spans (`onSegment_iff`).
-/

namespace MapStyle.Geometry

variable {α : Type} [Field α] [LinearOrder α] [IsStrictOrderedRing α]
variable {a b c d p q r z : Position α}

/-! ## Points on a segment -/

omit [Field α] [IsStrictOrderedRing α] in
theorem inSpan_iff [BEq α] [LawfulBEq α] : inSpan p q r = true ↔
    (min p.x q.x ≤ r.x ∧ r.x ≤ max p.x q.x) ∧
      min p.y q.y ≤ r.y ∧ r.y ≤ max p.y q.y := by
  simp only [inSpan, Number.lesser_eq_min, Number.greater_eq_max,
    Bool.and_eq_true, decide_eq_true_eq, and_assoc]

/-- What lies between two different numbers is at most as far from the first as
the second is. -/
theorem mem_of_between {x y w k : α} (hne : x ≠ y) (hw : w - x = (y - x) * k)
    (hlo : min x y ≤ w) (hhi : w ≤ max x y) : 0 ≤ k ∧ k ≤ 1 := by
  rcases hne.lt_or_gt with hlt | hgt
  · have hpos : 0 < y - x := sub_pos.2 hlt
    rw [min_eq_left hlt.le] at hlo
    rw [max_eq_right hlt.le] at hhi
    refine ⟨nonneg_of_mul_nonneg_right (hw ▸ sub_nonneg.2 hlo) hpos,
      le_of_mul_le_mul_left ?_ hpos⟩
    rw [← hw, mul_one]
    exact sub_le_sub_right hhi x
  · have hpos : 0 < x - y := sub_pos.2 hgt
    rw [min_eq_right hgt.le] at hlo
    rw [max_eq_left hgt.le] at hhi
    have hk : (x - y) * k = x - w := by linear_combination hw
    refine ⟨nonneg_of_mul_nonneg_right (hk ▸ sub_nonneg.2 hhi) hpos,
      le_of_mul_le_mul_left ?_ hpos⟩
    rw [hk, mul_one]
    exact sub_le_sub_left hlo x

theorem inSpan_along [BEq α] [LawfulBEq α] {t : α} (ht : 0 ≤ t) (ht' : t ≤ 1) :
    inSpan p q (along p q t) = true := by
  rw [inSpan_iff, along_x, along_y]
  exact ⟨⟨le_mix ht ht' (min_le_left _ _) (min_le_right _ _),
    mix_le ht ht' (le_max_left _ _) (le_max_right _ _)⟩,
    le_mix ht ht' (min_le_left _ _) (min_le_right _ _),
    mix_le ht ht' (le_max_left _ _) (le_max_right _ _)⟩

/-- A point is on a segment if it is on the line through the ends and in the box
that they span. -/
theorem onSegment_iff [BEq α] [LawfulBEq α] :
    OnSegment p q r ↔ side p q r = 0 ∧ inSpan p q r = true := by
  constructor
  · rintro ⟨t, ht, ht', rfl⟩
    exact ⟨side_along_self p q t, inSpan_along ht ht'⟩
  · rintro ⟨hside, hspan⟩
    obtain ⟨⟨hxlo, hxhi⟩, hylo, hyhi⟩ := inSpan_iff.1 hspan
    by_cases hpq : p = q
    · subst hpq
      rw [min_self] at hxlo hylo
      rw [max_self] at hxhi hyhi
      have hr : p = r := Position.ext (hxlo.antisymm hxhi) (hylo.antisymm hyhi)
      exact hr ▸ onSegment_first p p
    have hskew : skew p q p r = 0 := by
      rw [← neg_eq_zero, ← hside, skew, side]
      ring
    obtain ⟨k, hx, hy⟩ := exists_multiple hpq hskew
    have hk : 0 ≤ k ∧ k ≤ 1 := by
      by_cases hne : p.x = q.x
      · have hne' : p.y ≠ q.y := fun heq => hpq (Position.ext hne heq)
        exact mem_of_between hne' hy hylo hyhi
      · exact mem_of_between hne hx hxlo hxhi
    refine ⟨k, hk.1, hk.2, ?_⟩
    ext <;> simp only [along]
    · linear_combination -hx
    · linear_combination -hy

omit [IsStrictOrderedRing α] in
theorem OnSegment.side_eq_zero (h : OnSegment p q r) : side p q r = 0 := by
  obtain ⟨t, -, -, rfl⟩ := h
  exact side_along_self p q t

/-! ## Segments that meet inside -/

/-- Two segments that each have their ends on different sides of the other meet
inside both. -/
theorem exists_meeting_point (hab : opposite (side c d a) (side c d b) = true)
    (hcd : opposite (side a b c) (side a b d) = true) :
    ∃ s t, 0 < s ∧ s < 1 ∧ 0 < t ∧ t < 1 ∧ along a b s = along c d t := by
  obtain ⟨hs, hs'⟩ := div_sub_mem_of_opposite hab
  obtain ⟨ht, ht'⟩ := div_sub_mem_of_opposite hcd
  refine ⟨_, _, hs, hs', ht, ht', ?_⟩
  have hskew : skew a b c d ≠ 0 := skew_ne_zero hab
  have hab : side c d a - side c d b = -skew a b c d := by
    rw [← side_sub_side, neg_sub]
  have hcd : side a b c - side a b d = skew a b c d := by
    rw [← neg_sub, side_sub_side, skew_swap, neg_neg]
  rw [hab, hcd, div_neg]
  ext <;> simp only [along] <;> field_simp <;> simp only [side, skew] <;> ring

/-- A point that is inside both of two segments that are not parallel has the
ends of each on different sides of the other. -/
theorem opposite_of_common (hskew : skew a b c d ≠ 0) (hab : OnSegment a b z)
    (hcd : OnSegment c d z) (ha : z ≠ a) (hb : z ≠ b) :
    opposite (side c d a) (side c d b) = true := by
  obtain ⟨s, hs, hs', rfl⟩ := hab.exists_along ha hb
  exact opposite_sides hs hs' hskew hcd.side_eq_zero

/-- Segments with a common point meet inside both of them, unless an end of one
is on the other. -/
theorem opposite_of_no_end (hab : OnSegment a b z) (hcd : OnSegment c d z)
    (ha : ¬ OnSegment c d a) (hb : ¬ OnSegment c d b) (hc : ¬ OnSegment a b c)
    (hd : ¬ OnSegment a b d) :
    opposite (side c d a) (side c d b) = true ∧
      opposite (side a b c) (side a b d) = true := by
  -- Segments along each other have an end that is on the other one.
  have hskew : skew a b c d ≠ 0 := fun hzero => by
    rcases end_on_of_parallel hzero hab hcd with h | h | h
    · exact hc h
    · exact hd h
    · exact ha h
  have hskew' : skew c d a b ≠ 0 := by
    rw [skew_swap]
    exact neg_ne_zero.2 hskew
  exact ⟨opposite_of_common hskew hab hcd (fun h => ha (h ▸ hcd))
      (fun h => hb (h ▸ hcd)),
    opposite_of_common hskew' hcd hab (fun h => hc (h ▸ hab))
      (fun h => hd (h ▸ hab))⟩

/-! ## The tests -/

section Tests

variable [BEq α] [LawfulBEq α]

theorem segmentsMeet_iff_opposite_or_end : segmentsMeet a b c d = true ↔
    (opposite (side c d a) (side c d b) = true ∧
      opposite (side a b c) (side a b d) = true) ∨
    OnSegment c d a ∨ OnSegment c d b ∨ OnSegment a b c ∨ OnSegment a b d := by
  simp only [segmentsMeet, onSegment_iff, Bool.or_eq_true, Bool.and_eq_true,
    beq_iff_eq, or_assoc]

theorem segmentsMeet_iff : segmentsMeet a b c d = true ↔
    ∃ z, OnSegment a b z ∧ OnSegment c d z := by
  rw [segmentsMeet_iff_opposite_or_end]
  constructor
  · rintro (⟨hab, hcd⟩ | h | h | h | h)
    · obtain ⟨s, t, hs, hs', ht, ht', h⟩ := exists_meeting_point hab hcd
      exact ⟨_, ⟨s, hs.le, hs'.le, rfl⟩, ⟨t, ht.le, ht'.le, h.symm⟩⟩
    · exact ⟨a, onSegment_first a b, h⟩
    · exact ⟨b, onSegment_second a b, h⟩
    · exact ⟨c, h, onSegment_first c d⟩
    · exact ⟨d, h, onSegment_second c d⟩
  · rintro ⟨z, hab, hcd⟩
    by_contra hnone
    simp only [not_or] at hnone
    obtain ⟨hinside, ha, hb, hc, hd⟩ := hnone
    exact hinside (opposite_of_no_end hab hcd ha hb hc hd)

omit [IsStrictOrderedRing α] [BEq α] [LawfulBEq α] in
/-- A point of a segment is no end of another one that has its ends on both
sides of it. -/
theorem ne_of_opposite_sides (h : opposite (side c d a) (side c d b) = true)
    (hz : OnSegment c d z) : z ≠ a ∧ z ≠ b := by
  have hzero := hz.side_eq_zero
  constructor
  · rintro rfl
    rcases opposite_iff.1 h with ⟨hpos, -⟩ | ⟨hneg, -⟩
    · exact hpos.ne' hzero
    · exact hneg.ne hzero
  · rintro rfl
    rcases opposite_iff.1 h with ⟨-, hneg⟩ | ⟨-, hpos⟩
    · exact hneg.ne hzero
    · exact hpos.ne' hzero

theorem segmentsCross_iff : segmentsCross a b c d = true ↔
    skew a b c d ≠ 0 ∧ ∃ z, OnSegment a b z ∧ OnSegment c d z ∧
      z ≠ a ∧ z ≠ b ∧ z ≠ c ∧ z ≠ d := by
  constructor
  · intro h
    obtain ⟨hab, hcd⟩ := segmentsCross_iff_opposite.1 h
    obtain ⟨s, t, hs, hs', ht, ht', heq⟩ := exists_meeting_point hab hcd
    have hon : OnSegment a b (along a b s) := ⟨s, hs.le, hs'.le, rfl⟩
    have hon' : OnSegment c d (along a b s) := ⟨t, ht.le, ht'.le, heq.symm⟩
    obtain ⟨ha, hb⟩ := ne_of_opposite_sides hab hon'
    obtain ⟨hc, hd⟩ := ne_of_opposite_sides hcd hon
    exact ⟨skew_ne_zero hab, _, hon, hon', ha, hb, hc, hd⟩
  · rintro ⟨hskew, z, hab, hcd, ha, hb, hc, hd⟩
    obtain ⟨s, hs, hs', rfl⟩ := hab.exists_along ha hb
    obtain ⟨t, ht, ht', h⟩ := hcd.exists_along hc hd
    exact segmentsCross_of_along hs hs' ht ht' h.symm hskew

end Tests

/-- Over exact numbers the tests of two segments, points among them, are exact:
one finds the segments that have a point in common, the other those that are not
parallel and have one that is an end of neither. -/
theorem segment_tests_exact (a b c d : Position ℚ) :
    (segmentsMeet a b c d = true ↔ ∃ z, OnSegment a b z ∧ OnSegment c d z) ∧
    (segmentsCross a b c d = true ↔
      (b.x - a.x) * (d.y - c.y) - (b.y - a.y) * (d.x - c.x) ≠ 0 ∧
        ∃ z, OnSegment a b z ∧ OnSegment c d z ∧
          z ≠ a ∧ z ≠ b ∧ z ≠ c ∧ z ≠ d) := by
  have hcross : (b.x - a.x) * (d.y - c.y) - (b.y - a.y) * (d.x - c.x) =
      -skew a b c d := by
    rw [skew]
    ring
  rw [hcross, neg_ne_zero]
  exact ⟨segmentsMeet_iff, segmentsCross_iff⟩

/-- A segment that ends on another one meets it and does not cross it. -/
example : segmentsMeet (⟨0, 0⟩ : Position ℚ) ⟨2, 0⟩ ⟨1, 0⟩ ⟨1, 1⟩ = true ∧
    segmentsCross (⟨0, 0⟩ : Position ℚ) ⟨2, 0⟩ ⟨1, 0⟩ ⟨1, 1⟩ = false := by
  decide +kernel

end MapStyle.Geometry
