import Mathlib.Data.Finset.Dedup
import Mathlib.Data.Finset.Order
import MapStyle.Geometry.Within
import MapStyle.Proofs.Geometry.Boxes
import MapStyle.Proofs.Geometry.Containment

/-!
# The comparison of boxes

Before any edge is looked at, points are compared with the box around the
polygons, and they are not within them if they are not strictly inside the box.
The answer is the same without this comparison
(`pointsWithin_eq_containsPoints`).

What this rests on is that a point inside a polygon has vertices beyond it in
every direction (`exists_vertex_beyond`). Otherwise there would be a point that
is farther in that direction than the polygon and whose ray meets nothing
(`exists_unseen`), and no edge would be between the two (`apart_of_reach`), not
even where vertices and edges of the polygon are as far as the first point is.
-/

namespace MapStyle.Geometry

section

variable {α : Type} [Field α] {a b p q u : Position α}

/-- How far a point is in the direction of a vector. -/
def reach (u p : Position α) : α :=
  u.x * p.x + u.y * p.y

theorem reach_along (u a b : Position α) (t : α) :
    reach u (along a b t) = (1 - t) * reach u a + t * reach u b := by
  simp only [reach, along]
  ring

variable [LinearOrder α] [IsStrictOrderedRing α]

/-- The way to a point that is farther in a direction has nothing in common with
an edge that is not farther, if it does not start on it. -/
theorem apart_of_reach (hpq : reach u p < reach u q)
    (ha : reach u a ≤ reach u p) (hb : reach u b ≤ reach u p)
    (hp : ¬ OnSegment a b p) : Apart p q a b := by
  rintro z ⟨t, ht, ht', rfl⟩ hz
  have hle : reach u (along p q t) ≤ reach u p := by
    obtain ⟨s, hs, hs', hst⟩ := hz
    rw [← hst, reach_along]
    exact mix_le hs hs' ha hb
  have hstart : t = 0 := by
    have hway : t * (reach u q - reach u p) ≤ 0 := by
      rw [reach_along] at hle
      linarith
    exact le_antisymm (nonpos_of_mul_nonpos_left hway (sub_pos.2 hpq)) ht
  rw [hstart, along_zero] at hz
  exact hp hz

omit [IsStrictOrderedRing α] in
theorem rayCrosses_of_level
    (h : decide (p.y < a.y) = decide (p.y < b.y)) : rayCrosses p a b = false := by
  rw [rayCrosses, h, bne_self_eq_false, Bool.false_and]

/-- In every direction there is a point farther than another one whose ray meets
none of the edges between some vertices: one above all of them or below all of
them. -/
theorem exists_unseen (hu : u.x ≠ 0 ∨ u.y ≠ 0) (p : Position α)
    (vertices : List (Position α)) : ∃ q, reach u p < reach u q ∧
      ∀ a ∈ vertices, ∀ b ∈ vertices, rayCrosses q a b = false := by
  obtain ⟨size, hsize⟩ :=
    (vertices.map fun v => |v.y|).toFinset.exists_le
  have hbound : ∀ v ∈ vertices, |v.y| ≤ size := fun v hv =>
    hsize _ (List.mem_toFinset.2 (List.mem_map_of_mem hv))
  have habove {q : Position α} (hq : size ≤ q.y) : ∀ a ∈ vertices,
      ∀ b ∈ vertices, rayCrosses q a b = false := by
    have hno : ∀ v ∈ vertices, ¬ q.y < v.y := fun v hv =>
      ((le_abs_self v.y).trans ((hbound v hv).trans hq)).not_gt
    intro a ha b hb
    exact rayCrosses_of_level (by simp [hno a ha, hno b hb])
  have hbelow {q : Position α} (hq : q.y < -size) : ∀ a ∈ vertices,
      ∀ b ∈ vertices, rayCrosses q a b = false := by
    have hyes : ∀ v ∈ vertices, q.y < v.y := fun v hv =>
      hq.trans_le (abs_le.1 (hbound v hv)).1
    intro a ha b hb
    exact rayCrosses_of_level (by simp [hyes a ha, hyes b hb])
  rcases lt_trichotomy u.y 0 with hneg | hzero | hpos
  · refine ⟨⟨p.x, min (-size - 1) (p.y - 1)⟩, ?_, hbelow ?_⟩
    · have hlt : min (-size - 1) (p.y - 1) < p.y :=
        (min_le_right _ _).trans_lt (sub_one_lt p.y)
      simp only [reach]
      exact add_lt_add_right (mul_lt_mul_of_neg_left hlt hneg) _
    · exact (min_le_left _ _).trans_lt (sub_one_lt (-size))
  · have hx : u.x ≠ 0 := hu.resolve_right (not_not.2 hzero)
    refine ⟨⟨p.x + u.x, size⟩, ?_, habove le_rfl⟩
    have hsquare : 0 < u.x * u.x := mul_self_pos.2 hx
    simp only [reach, hzero]
    linarith
  · refine ⟨⟨p.x, max size (p.y + 1)⟩, ?_, habove (le_max_left _ _)⟩
    have hlt : p.y < max size (p.y + 1) :=
      (lt_add_one p.y).trans_le (le_max_right _ _)
    simp only [reach]
    exact add_lt_add_right (mul_lt_mul_of_pos_left hlt hpos) _

variable [BEq α] [LawfulBEq α] {polygon : Polygon α}

/-- A point that is strictly inside a polygon of closed rings has a vertex
beyond it in every direction. -/
theorem exists_vertex_beyond (hclosed : ∀ ring ∈ polygon, Closed ring)
    (hu : u.x ≠ 0 ∨ u.y ≠ 0) (h : polygonContains polygon false p = true) :
    ∃ v ∈ polygon.flatten, reach u p < reach u v := by
  obtain ⟨hoff, hodd⟩ := polygonContains_eq_not_iff.1 h
  by_contra hnone
  have hwithin : ∀ v ∈ polygon.flatten, reach u v ≤ reach u p :=
    fun v hv => le_of_not_gt fun hlt => hnone ⟨v, hv, hlt⟩
  obtain ⟨q, hpq, hunseen⟩ := exists_unseen hu p polygon.flatten
  have hapart : ∀ e ∈ polygon.flatMap edges, Apart p q e.1 e.2 := by
    intro e he
    obtain ⟨h₁, h₂⟩ := mem_vertices_of_mem_edges he
    exact apart_of_reach hpq (hwithin _ h₁) (hwithin _ h₂) fun hon =>
      Bool.false_ne_true ((hoff e he).symm.trans (onEdge_of_onSegment hon))
  have heven : oddMany (fun e => rayCrosses q e.1 e.2)
      (polygon.flatMap edges) = false := by
    rw [oddMany, List.countP_eq_zero.2]
    · rfl
    · intro e he
      obtain ⟨h₁, h₂⟩ := mem_vertices_of_mem_edges he
      rw [hunseen _ h₁ _ h₂]
      exact Bool.false_ne_true
  rw [oddMany_rayCrosses_congr hclosed hapart, heven] at hodd
  cases hodd

/-! ## The box around a region -/

variable {nothing : Box α} {region : List (Polygon α)}

/-- A point inside a polygon is surrounded by the box around the region, which
has grown beyond the box it started from. -/
theorem surrounds_of_contains
    (hclosed : ∀ polygon ∈ region, ∀ ring ∈ polygon, Closed ring)
    (hnothing : nothing.Beyond region.flatten.flatten)
    (h : ∃ polygon ∈ region, polygonContains polygon false p = true) :
    (regionBox nothing region).Surrounds p ∧
      nothing.inside (regionBox nothing region) = true := by
  obtain ⟨polygon, hpolygon, hp⟩ := h
  have hmem {v : Position α} (hv : v ∈ polygon.flatten) :
      v ∈ region.flatten.flatten := by
    obtain ⟨ring, hring, hv⟩ := List.mem_flatten.1 hv
    exact List.mem_flatten_of_mem (List.mem_flatten_of_mem hpolygon hring) hv
  have hfar {u : Position α} (hu : u.x ≠ 0 ∨ u.y ≠ 0) :
      ∃ v ∈ region.flatten.flatten, reach u p < reach u v := by
    obtain ⟨v, hv, hlt⟩ := exists_vertex_beyond (hclosed polygon hpolygon) hu hp
    exact ⟨v, hmem hv, hlt⟩
  -- One vertex on each side of the point, which the box holds.
  obtain ⟨left, hleft, hwest⟩ := hfar (u := ⟨-1, 0⟩) (.inl (by simp))
  obtain ⟨right, hright, heast⟩ := hfar (u := ⟨1, 0⟩) (.inl (by simp))
  obtain ⟨low, hlow, hsouth⟩ := hfar (u := ⟨0, -1⟩) (.inr (by simp))
  obtain ⟨high, hhigh, hnorth⟩ := hfar (u := ⟨0, 1⟩) (.inr (by simp))
  simp only [reach, neg_mul, one_mul, zero_mul, add_zero, zero_add,
    neg_lt_neg_iff] at hwest heast hsouth hnorth
  have hholds {v : Position α} (hv : v ∈ region.flatten.flatten) :
      (regionBox nothing region).Holds v := Box.holds_of_mem hv
  have hminX := (hholds hleft).1.1.trans_lt hwest
  have hmaxX := heast.trans_le (hholds hright).1.2
  have hminY := (hholds hlow).2.1.trans_lt hsouth
  have hmaxY := hnorth.trans_le (hholds hhigh).2.2
  refine ⟨⟨⟨hminX, hmaxX⟩, hminY, hmaxY⟩, Box.inside_iff.2 ⟨⟨?_, ?_⟩, ?_, ?_⟩⟩
  · exact hminX.trans (heast.trans_le (hnothing right hright).1.1)
  · exact ((hnothing left hleft).1.2.trans_lt hwest).trans hmaxX
  · exact hminY.trans (hnorth.trans_le (hnothing high hhigh).2.1)
  · exact ((hnothing low hlow).2.2.trans_lt hsouth).trans hmaxY

end

/-- Without the comparison of boxes, points are within the polygons if each of
them is strictly inside one, and with it the answer is the same. -/
theorem pointsWithin_eq_containsPoints {nothing : Box ℚ} {worldSize : ℚ}
    {region : List (Polygon ℚ)} {points : List (Position ℚ)}
    (hclosed : ∀ polygon ∈ region, ∀ ring ∈ polygon, Closed ring)
    (hnothing : nothing.Beyond region.flatten.flatten) (hpoints : points ≠ []) :
    pointsWithin nothing worldSize region points =
      containsPoints region
        (points.map (shiftInto (regionBox nothing region) worldSize)) := by
  rw [pointsWithin, Bool.and_eq_right_iff_imp]
  intro hcontains
  rw [containsPoints, List.all_eq_true] at hcontains
  have hsurrounds (p : Position ℚ)
      (hp : p ∈ points.map (shiftInto (regionBox nothing region) worldSize)) :=
    surrounds_of_contains hclosed hnothing (List.any_eq_true.1 (hcontains p hp))
  obtain ⟨p, hp⟩ := List.exists_mem_of_ne_nil points hpoints
  rw [Box.inside_extendAll]
  exact ⟨(hsurrounds _ (List.mem_map_of_mem hp)).2,
    fun p hp => (hsurrounds p hp).1⟩

/-- A square that stands on its corner. -/
def diamond : Polygon ℚ :=
  [[⟨4, 0⟩, ⟨8, 4⟩, ⟨4, 8⟩, ⟨0, 4⟩, ⟨4, 0⟩]]

/-- A point whose ray runs through a corner of the square, and one that is
shifted by the width of the world to be in it. -/
theorem pointsWithin_eq_containsPoints_corner :
    (∀ polygon ∈ [diamond], ∀ ring ∈ polygon, Closed ring) ∧
      Box.Beyond ⟨9, 9, -1, -1⟩ [diamond].flatten.flatten ∧
      [⟨3, 4⟩, ⟨-11, 5⟩] ≠ ([] : List (Position ℚ)) ∧
      pointsWithin ⟨9, 9, -1, -1⟩ 16 [diamond] [⟨3, 4⟩, ⟨-11, 5⟩] =
        containsPoints [diamond] ([⟨3, 4⟩, ⟨-11, 5⟩].map
          (shiftInto (regionBox ⟨9, 9, -1, -1⟩ [diamond]) 16)) ∧
      pointsWithin ⟨9, 9, -1, -1⟩ 16 [diamond] [⟨3, 4⟩, ⟨-11, 5⟩] = true := by
  have hclosed : ∀ polygon ∈ [diamond], ∀ ring ∈ polygon, Closed ring := by
    simp [diamond, Closed]
  have hnothing : Box.Beyond ⟨9, 9, -1, -1⟩ [diamond].flatten.flatten := by
    simp [Box.Beyond, diamond]
    norm_num
  exact ⟨hclosed, hnothing, List.cons_ne_nil _ _,
    pointsWithin_eq_containsPoints hclosed hnothing (List.cons_ne_nil _ _),
    by decide +kernel⟩

end MapStyle.Geometry
