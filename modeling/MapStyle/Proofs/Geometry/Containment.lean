import MapStyle.Proofs.Geometry.Parity

/-!
# Lines inside polygons

A line counts as inside a polygon when its vertices are strictly inside and none
of its segments crosses an edge. That leaves out segments that leave the polygon
through a vertex of it, or along an edge from one vertex to another: there they
have a point in common with edges, but do not cross them.

That is also all it leaves out. A point of a segment is inside or on the
boundary unless there are vertices of the polygon before it and after it on the
segment (`contains_of_polygonContainsLine`). The way from an end to the point
has to meet an edge, as the one is inside and the other is not; where the edge
is not crossed there, one of its ends is on the way.
-/

namespace MapStyle.Geometry

section

variable {α : Type} [Field α] [LinearOrder α] [IsStrictOrderedRing α]
variable {a b c d p : Position α}

/-- No point is inside both segments, unless they are parallel. -/
def Uncrossed (a b c d : Position α) : Prop :=
  ∀ s t, 0 < s → s < 1 → 0 < t → t < 1 → along a b s = along c d t →
    skew a b c d = 0

theorem Uncrossed.symm (h : Uncrossed a b c d) : Uncrossed b a c d := by
  intro s t hs hs' ht ht' hst
  have hzero := h (1 - s) t (sub_pos.2 hs') (sub_lt_self 1 hs) ht ht'
    ((along_reverse a b s).symm.trans hst)
  rw [← neg_eq_zero, ← hzero, skew, skew]
  ring

variable [BEq α] [LawfulBEq α]

theorem uncrossed_of_segmentsCross (h : segmentsCross a b c d = false) :
    Uncrossed a b c d := fun s t hs hs' ht ht' hst => by
  by_contra hskew
  rw [segmentsCross_of_along hs hs' ht ht' hst hskew] at h
  cases h

omit [LinearOrder α] [IsStrictOrderedRing α] [BEq α] [LawfulBEq α] in
theorem skew_along (w : α) : skew a (along a b w) c d = skew a b c d * w := by
  simp only [skew, along]
  ring

omit [BEq α] [LawfulBEq α] in
/-- If the way from `a` to a point on the segment to `b` meets an edge that
contains neither of the two, and the segment does not cross the edge, then an
end of the edge is on the way. -/
theorem end_on_of_uncrossed (huncrossed : Uncrossed a b c d)
    (hp : OnSegment a b p) (ha : ¬ OnSegment c d a) (hon : ¬ OnSegment c d p)
    (hmeet : ¬ Apart a p c d) : OnSegment a p c ∨ OnSegment a p d := by
  obtain ⟨z, hap, hcd⟩ : ∃ z, OnSegment a p z ∧ OnSegment c d z := by
    simpa only [Apart, not_forall, not_not, exists_prop] using hmeet
  by_cases hskew : skew a p c d = 0
  · rcases end_on_of_parallel hskew hap hcd with hc | hd | ha'
    · exact .inl hc
    · exact .inr hd
    · exact absurd ha' ha
  have haz : z ≠ a := fun h => ha (h ▸ hcd)
  have hpz : z ≠ p := fun h => hon (h ▸ hcd)
  by_cases hcz : z = c
  · exact .inl (hcz ▸ hap)
  by_cases hdz : z = d
  · exact .inr (hdz ▸ hap)
  -- The common point is inside both segments, and they are not parallel.
  obtain ⟨s, hs, hs', rfl⟩ := hap.exists_along haz hpz
  obtain ⟨t, ht, ht', hst⟩ := hcd.exists_along hcz hdz
  obtain ⟨w, hw, hw', rfl⟩ := hp
  rw [skew_along, mul_eq_zero, not_or] at hskew
  rw [along_along] at hst
  refine absurd (huncrossed (w * s) t ?_ ?_ ht ht' hst.symm) hskew.1
  · exact mul_pos (hw.lt_of_ne' hskew.2) hs
  · exact mul_lt_one_of_nonneg_of_lt_one_right hw' hs.le hs'

/-! ## Polygons -/

variable {polygon : Polygon α}

omit [Field α] [LinearOrder α] [IsStrictOrderedRing α] [BEq α] [LawfulBEq α] in
theorem mem_vertices_of_mem_edges {e : Position α × Position α}
    (h : e ∈ polygon.flatMap edges) :
    e.1 ∈ polygon.flatten ∧ e.2 ∈ polygon.flatten := by
  obtain ⟨ring, hring, he⟩ := List.mem_flatMap.1 h
  obtain ⟨h₁, h₂⟩ := List.of_mem_zip he
  exact ⟨List.mem_flatten.2 ⟨ring, hring, h₁⟩,
    List.mem_flatten.2 ⟨ring, hring, List.mem_of_mem_tail h₂⟩⟩

omit [IsStrictOrderedRing α] [LawfulBEq α] in
/-- An answer that is not the one for the boundary is that of the crossings. -/
theorem polygonContains_eq_not_iff {onBoundary : Bool} :
    polygonContains polygon onBoundary p = !onBoundary ↔
      (∀ e ∈ polygon.flatMap edges, onEdge p e.1 e.2 = false) ∧
        oddMany (fun e => rayCrosses p e.1 e.2) (polygon.flatMap edges)
          = !onBoundary := by
  rw [polygonContains]
  split
  · next hany =>
    obtain ⟨e, he, hon⟩ := List.any_eq_true.1 hany
    refine ⟨fun h => absurd h.symm (Bool.not_ne_self onBoundary), fun h => ?_⟩
    exact (Bool.false_ne_true ((h.1 e he).symm.trans hon)).elim
  · next hany =>
    have hoff : ∀ e ∈ polygon.flatMap edges, onEdge p e.1 e.2 = false :=
      fun e he => Bool.eq_false_of_not_eq_true fun hon =>
        hany (List.any_eq_true.2 ⟨e, he, hon⟩)
    exact (and_iff_right hoff).symm

/-- Strictly inside at `a`, outside at a point of a segment that crosses no
edge: there is a vertex on the way. -/
theorem exists_vertex_between (hclosed : ∀ ring ∈ polygon, Closed ring)
    (huncrossed : ∀ e ∈ polygon.flatMap edges, Uncrossed a b e.1 e.2)
    (ha : polygonContains polygon false a = true) (hp : OnSegment a b p)
    (hout : polygonContains polygon true p = false) :
    ∃ v ∈ polygon.flatten, OnSegment a p v := by
  obtain ⟨hoff, hodd⟩ := polygonContains_eq_not_iff.1 ha
  obtain ⟨hoff', heven⟩ := polygonContains_eq_not_iff.1 hout
  by_contra hnone
  have hapart : ∀ e ∈ polygon.flatMap edges, Apart a p e.1 e.2 := by
    intro e he
    by_contra hmeet
    obtain ⟨h₁, h₂⟩ := mem_vertices_of_mem_edges he
    have hfree {r : Position α} (h : onEdge r e.1 e.2 = false) :
        ¬ OnSegment e.1 e.2 r := fun hon =>
      Bool.false_ne_true (h.symm.trans (onEdge_of_onSegment hon))
    rcases end_on_of_uncrossed (huncrossed e he) hp (hfree (hoff e he))
      (hfree (hoff' e he)) hmeet with h | h
    · exact hnone ⟨e.1, h₁, h⟩
    · exact hnone ⟨e.2, h₂, h⟩
  rw [oddMany_rayCrosses_congr hclosed hapart, heven] at hodd
  cases hodd

end

/-- Every point of a line that counts as inside a polygon of closed rings is
inside it or on its boundary, unless it lies between two vertices of the polygon
that are on the same segment of the line. -/
theorem contains_of_polygonContainsLine {polygon : Polygon ℚ}
    {line : List (Position ℚ)} (hclosed : ∀ ring ∈ polygon, Closed ring)
    (hline : polygonContainsLine polygon line = true) {a b p : Position ℚ}
    (hab : (a, b) ∈ edges line) (hp : OnSegment a b p) :
    polygonContains polygon true p = true ∨
      ∃ v ∈ polygon.flatten, ∃ w ∈ polygon.flatten,
        OnSegment a p v ∧ OnSegment p b w := by
  rw [polygonContainsLine, Bool.and_eq_true, List.all_eq_true,
    Bool.not_eq_true', List.any_eq_false] at hline
  obtain ⟨hinside, hcross⟩ := hline
  have huncrossed : ∀ e ∈ polygon.flatMap edges, Uncrossed a b e.1 e.2 :=
    fun e he => uncrossed_of_segmentsCross <|
      Bool.eq_false_of_not_eq_true fun h =>
        hcross (a, b) hab (List.any_eq_true.2 ⟨e, he, h⟩)
  obtain ⟨ha, hb⟩ := List.of_mem_zip hab
  by_cases hout : polygonContains polygon true p = true
  · exact .inl hout
  rw [Bool.not_eq_true] at hout
  obtain ⟨v, hv, hav⟩ :=
    exists_vertex_between hclosed huncrossed (hinside a ha) hp hout
  obtain ⟨w, hw, hbw⟩ :=
    exists_vertex_between hclosed (fun e he => (huncrossed e he).symm)
      (hinside b (List.mem_of_mem_tail hb)) hp.symm hout
  exact .inr ⟨v, hv, w, hw, hav, hbw.symm⟩

/-- A square with a hole that is a square standing on its corner. -/
def pierced : Polygon ℚ :=
  [[⟨0, 0⟩, ⟨8, 0⟩, ⟨8, 8⟩, ⟨0, 8⟩, ⟨0, 0⟩],
    [⟨2, 4⟩, ⟨4, 6⟩, ⟨6, 4⟩, ⟨4, 2⟩, ⟨2, 4⟩]]

/-- A line that touches the hole at a corner. -/
theorem contains_of_polygonContainsLine_touching :
    (∀ ring ∈ pierced, Closed ring) ∧
      polygonContainsLine pierced [⟨2, 1⟩, ⟨2, 7⟩] = true ∧
      OnSegment (⟨2, 1⟩ : Position ℚ) ⟨2, 7⟩ ⟨2, 3⟩ ∧
      (polygonContains pierced true ⟨2, 3⟩ = true ∨
        ∃ v ∈ pierced.flatten, ∃ w ∈ pierced.flatten,
          OnSegment ⟨2, 1⟩ ⟨2, 3⟩ v ∧ OnSegment ⟨2, 3⟩ ⟨2, 7⟩ w) := by
  have hclosed : ∀ ring ∈ pierced, Closed ring := by simp [pierced, Closed]
  have hline : polygonContainsLine pierced [⟨2, 1⟩, ⟨2, 7⟩] = true := by
    decide +kernel
  have hp : OnSegment (⟨2, 1⟩ : Position ℚ) ⟨2, 7⟩ ⟨2, 3⟩ := by
    refine ⟨1 / 3, by norm_num, by norm_num, ?_⟩
    simp only [along]
    norm_num
  exact ⟨hclosed, hline, hp,
    contains_of_polygonContainsLine hclosed hline (by simp [edges]) hp⟩

/-- A line that runs through the hole from corner to corner counts as inside,
and its middle is in the hole. -/
theorem polygonContainsLine_through_hole :
    (∀ ring ∈ pierced, Closed ring) ∧
      polygonContainsLine pierced [⟨1, 4⟩, ⟨7, 4⟩] = true ∧
      OnSegment (⟨1, 4⟩ : Position ℚ) ⟨7, 4⟩ ⟨4, 4⟩ ∧
      polygonContains pierced true ⟨4, 4⟩ = false :=
  ⟨by simp [pierced, Closed], by decide +kernel,
    ⟨1 / 2, by norm_num, by norm_num, by
      simp only [along]
      norm_num⟩,
    by decide +kernel⟩

end MapStyle.Geometry
