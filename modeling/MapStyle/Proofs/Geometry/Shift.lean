import MapStyle.Proofs.Geometry.Shortcut

/-!
# Lines across the antimeridian

A line that is at most half a world wide may be shifted by the width of the
world before it is compared with the polygons. Every point is shifted for
itself: east if it is west of one limit, west if it is east of another one
(`shiftInto_eq`). So the points of a line move together unless one of the two
limits parts them (`parted_or_together`).

A line that is parted runs where it did not run before. If the box around the
polygons is at most half a world wide, it does not matter, since a part of the
line is left outside the box; a line is then within the polygons if it is when
shifted as a whole (`shift_together_iff`). A wider box can hold both parts, and
`shift_tears_line` has a line that is within the polygons because of that.
-/

namespace MapStyle.Geometry

section

variable {α : Type} [Field α] [LinearOrder α] {box : Box α} {w : α}
  {p q : Position α}

/-- The point moved to the east. -/
def Position.moved (s : α) (p : Position α) : Position α :=
  ⟨p.x + s, p.y⟩

/-- Points to the west of this limit are shifted by the width of the world. -/
def westLimit (box : Box α) (w : α) : α :=
  min box.minX (box.maxX - w / 2)

/-- Points to the east of this limit are shifted back by the width of the
world. -/
def eastLimit (box : Box α) (w : α) : α :=
  max box.maxX (box.minX + w / 2)

/-- How far a point is shifted. -/
def shiftOf (box : Box α) (w x : α) : α :=
  if x < westLimit box w then w else if eastLimit box w < x then -w else 0

/-- Whether a limit is between two points, the first of which is west of it. -/
def Parted (box : Box α) (w : α) (p q : Position α) : Prop :=
  p.x < westLimit box w ∧ westLimit box w ≤ q.x ∨
    p.x ≤ eastLimit box w ∧ eastLimit box w < q.x

theorem westLimit_le_eastLimit (hbox : box.minX ≤ box.maxX) :
    westLimit box w ≤ eastLimit box w :=
  (min_le_left _ _).trans (hbox.trans (le_max_left _ _))

variable [IsStrictOrderedRing α] {x edge : α}

theorem shiftToward_of_le (hw : 0 < w) (h : x ≤ edge) :
    shiftToward w x edge = if w / 2 < edge - x then w else 0 := by
  have hno : ¬ w / 2 < x - edge :=
    ((sub_nonpos.2 h).trans (half_pos hw).le).not_gt
  simp only [shiftToward, Nat.cast_ofNat, if_neg hno]

theorem shiftToward_of_ge (hw : 0 < w) (h : edge ≤ x) :
    shiftToward w x edge = if w / 2 < x - edge then -w else 0 := by
  have hno : ¬ w / 2 < edge - x :=
    ((sub_nonpos.2 h).trans (half_pos hw).le).not_gt
  simp only [shiftToward, Nat.cast_ofNat, if_neg hno]

variable [BEq α] [LawfulBEq α]

/-- Outside the box the side that is nearer is tried first. -/
theorem shiftInto_of_lt (hw : 0 < w) (hbox : box.minX ≤ box.maxX)
    (h : p.x < box.minX) : shiftInto box w p =
      p.moved (if w / 2 < box.maxX - p.x then w else 0) := by
  rw [shiftInto, if_neg (by simp [h.not_ge]), shiftToward_of_le hw h.le,
    shiftToward_of_le hw (h.le.trans hbox)]
  by_cases hmin : w / 2 < box.minX - p.x
  · have hmax := hmin.trans_le (sub_le_sub_right hbox p.x)
    simp [hmin, hmax, hw.ne', Position.moved]
  · simp [hmin, Position.moved]

theorem shiftInto_of_gt (hw : 0 < w) (hbox : box.minX ≤ box.maxX)
    (h : box.maxX < p.x) : shiftInto box w p =
      p.moved (if w / 2 < p.x - box.minX then -w else 0) := by
  rw [shiftInto, if_neg (by simp [h.not_ge]),
    shiftToward_of_ge hw (hbox.trans h.le), shiftToward_of_ge hw h.le]
  by_cases hmin : w / 2 < p.x - box.minX
  · simp [hmin, hw.ne', Position.moved]
  · have hmax : ¬ w / 2 < p.x - box.maxX := fun hmax =>
      hmin (hmax.trans_le (sub_le_sub_left hbox p.x))
    simp [hmin, hmax, Position.moved]

theorem shiftInto_eq (hw : 0 < w) (hbox : box.minX ≤ box.maxX)
    (p : Position α) : shiftInto box w p = p.moved (shiftOf box w p.x) := by
  have hwest : p.x < westLimit box w ↔
      p.x < box.minX ∧ w / 2 < box.maxX - p.x := by
    rw [westLimit, lt_min_iff, lt_sub_comm]
  have heast : eastLimit box w < p.x ↔
      box.maxX < p.x ∧ w / 2 < p.x - box.minX := by
    rw [eastLimit, max_lt_iff, lt_sub_iff_add_lt']
  rw [shiftOf]
  rcases lt_or_ge p.x box.minX with hmin | hmin
  · have hmax : ¬ box.maxX < p.x := (hmin.le.trans hbox).not_gt
    simp only [shiftInto_of_lt hw hbox hmin, hwest, heast, hmin, hmax, true_and,
      false_and, if_false]
  · rcases le_or_gt p.x box.maxX with hmax | hmax
    · simp [shiftInto, hwest, heast, hmin, hmax, hmin.not_gt, hmax.not_gt,
        Position.moved]
    · simp only [shiftInto_of_gt hw hbox hmax, hwest, heast, hmin.not_gt, hmax,
        true_and, false_and, if_false]

omit [IsStrictOrderedRing α] [BEq α] [LawfulBEq α] in
theorem shiftOf_mem (box : Box α) (w x : α) :
    shiftOf box w x = 0 ∨ shiftOf box w x = w ∨ shiftOf box w x = -w := by
  rw [shiftOf]
  split
  · exact .inr (.inl rfl)
  · split
    · exact .inr (.inr rfl)
    · exact .inl rfl

omit [BEq α] [LawfulBEq α] in
theorem shiftOf_eq_iff (hw : 0 < w) (hbox : box.minX ≤ box.maxX) :
    shiftOf box w p.x = shiftOf box w q.x ↔
      ¬ Parted box w p q ∧ ¬ Parted box w q p := by
  have hlimits := westLimit_le_eastLimit (w := w) hbox
  have hne : w ≠ -w := (neg_lt_self hw).ne'
  simp only [shiftOf, Parted]
  grind

/-! ## Lines -/

variable {nothing : Box α} {lines : List (List (Position α))} {s : α}

/-- All points of some lines moved to the east. -/
def movedLines (s : α) (lines : List (List (Position α))) :
    List (List (Position α)) :=
  lines.map fun line => line.map (Position.moved s)

omit [LinearOrder α] [IsStrictOrderedRing α] [BEq α] [LawfulBEq α] in
theorem Position.moved_inj {s t : α} : p.moved s = p.moved t ↔ s = t := by
  rw [moved, moved, Position.mk.injEq, add_right_inj, and_iff_left rfl]

theorem shiftLines_eq_iff (hw : 0 < w) (hbox : box.minX ≤ box.maxX)
    (hspan : (nothing.extendAll lines.flatten).maxX -
      (nothing.extendAll lines.flatten).minX ≤ w / 2) :
    shiftLines nothing box w lines = movedLines s lines ↔
      ∀ p ∈ lines.flatten, shiftOf box w p.x = s := by
  simp only [shiftLines, Nat.cast_ofNat, hspan, if_true, movedLines,
    List.map_inj_left, shiftInto_eq hw hbox, Position.moved_inj,
    List.forall_mem_flatten]

/-- The shifts that take a world to itself. -/
def IsShift (w s : α) : Prop :=
  s = 0 ∨ s = w ∨ s = -w

/-- The points of some lines are shifted together unless a limit is between two
of them. -/
theorem parted_or_together (hw : 0 < w) (hbox : box.minX ≤ box.maxX)
    (hspan : (nothing.extendAll lines.flatten).maxX -
      (nothing.extendAll lines.flatten).minX ≤ w / 2) :
    (∃ s, IsShift w s ∧ shiftLines nothing box w lines = movedLines s lines) ↔
      ∀ p ∈ lines.flatten, ∀ q ∈ lines.flatten, ¬ Parted box w p q := by
  simp only [shiftLines_eq_iff hw hbox hspan]
  constructor
  · rintro ⟨s, -, hs⟩ p hp q hq
    have hpq := (hs p hp).trans (hs q hq).symm
    exact ((shiftOf_eq_iff hw hbox).1 hpq).1
  · intro hnone
    cases hlines : lines.flatten with
    | nil => exact ⟨0, .inl rfl, nofun⟩
    | cons first rest =>
        rw [hlines] at hnone
        refine ⟨shiftOf box w first.x, shiftOf_mem box w first.x, fun p hp => ?_⟩
        exact (shiftOf_eq_iff hw hbox).2
          ⟨hnone p hp first List.mem_cons_self,
            hnone first List.mem_cons_self p hp⟩

/-! ## The answer -/

omit [BEq α] [LawfulBEq α] in
/-- What is in a box of at most half a world after a shift has been shifted
there. -/
theorem shiftOf_of_surrounds (hw : 0 < w)
    (hnarrow : box.maxX - box.minX ≤ w / 2) (hs : IsShift w s)
    (h : box.Surrounds (p.moved s)) : shiftOf box w p.x = s := by
  obtain ⟨hmin, hmax⟩ := h.1
  simp only [Position.moved] at hmin hmax
  rw [shiftOf, westLimit, eastLimit]
  rcases hs with rfl | rfl | rfl
  · rw [if_neg, if_neg]
    · exact fun hlt => ((le_max_left _ _).trans_lt hlt).not_ge (by linarith)
    · exact fun hlt => (hlt.trans_le (min_le_left _ _)).not_ge (by linarith)
  · exact if_pos (lt_min (by linarith) (by linarith))
  · rw [if_neg, if_pos]
    · exact max_lt (by linarith) (by linarith)
    · exact fun hlt => (hlt.trans_le (min_le_left _ _)).not_ge (by linarith)

omit [BEq α] [LawfulBEq α] in
/-- If both points end up in a box of at most half a world, no limit is between
them. -/
theorem not_parted_of_surrounds (hnarrow : box.maxX - box.minX ≤ w / 2)
    (hpq : q.x - p.x ≤ w / 2) (hp : box.Surrounds (p.moved (shiftOf box w p.x)))
    (hq : box.Surrounds (q.moved (shiftOf box w q.x))) :
    ¬ Parted box w p q := by
  have hwest : westLimit box w = box.maxX - w / 2 := min_eq_right (by linarith)
  have heast : eastLimit box w = box.minX + w / 2 := max_eq_right (by linarith)
  rintro (⟨hlt, hle⟩ | ⟨hle, hlt⟩)
  · rw [shiftOf, if_pos hlt] at hp
    have := hp.1.2
    simp only [Position.moved] at this
    linarith
  · have hbox : box.minX < box.maxX := hp.1.1.trans hp.1.2
    have hno : ¬ q.x < westLimit box w :=
      ((westLimit_le_eastLimit hbox.le).trans hlt.le).not_gt
    rw [shiftOf, if_neg hno, if_pos hlt] at hq
    have := hq.1.1
    simp only [Position.moved] at this
    linarith

/-- Whether lines are within the polygons where they are. -/
def linesInside (nothing : Box α) (region : List (Polygon α))
    (lines : List (List (Position α))) : Bool :=
  (nothing.extendAll lines.flatten).inside (regionBox nothing region) &&
    containsLines region lines

variable {region : List (Polygon α)}

omit [IsStrictOrderedRing α] in
theorem surrounds_of_linesInside (h : linesInside nothing region lines = true) :
    ∀ p ∈ lines.flatten, (regionBox nothing region).Surrounds p := by
  rw [linesInside, Bool.and_eq_true, Box.inside_extendAll] at h
  exact h.1.2

/-- In a box of at most half a world, lines that are shifted point by point are
within the polygons just if they are after some shift as a whole. -/
theorem linesWithin_iff_linesInside (hw : 0 < w)
    (hbox : (regionBox nothing region).minX ≤ (regionBox nothing region).maxX)
    (hspan : (nothing.extendAll lines.flatten).maxX -
      (nothing.extendAll lines.flatten).minX ≤ w / 2)
    (hnarrow : (regionBox nothing region).maxX -
      (regionBox nothing region).minX ≤ w / 2) :
    linesWithin nothing w region lines = true ↔
      ∃ s, IsShift w s ∧ linesInside nothing region (movedLines s lines) = true := by
  have hwithin : linesWithin nothing w region lines = linesInside nothing region
      (shiftLines nothing (regionBox nothing region) w lines) := rfl
  have hmem {f : Position α → Position α} {p : Position α}
      (hp : p ∈ lines.flatten) :
      f p ∈ (lines.map fun line => line.map f).flatten := by
    rw [← List.map_flatten]
    exact List.mem_map_of_mem hp
  rw [hwithin]
  constructor
  · intro h
    have hshifted : ∀ p ∈ lines.flatten, (regionBox nothing region).Surrounds
        (p.moved (shiftOf (regionBox nothing region) w p.x)) := by
      intro p hp
      rw [← shiftInto_eq hw hbox]
      refine surrounds_of_linesInside h _ ?_
      simp only [shiftLines, Nat.cast_ofNat, hspan, if_true]
      exact hmem hp
    obtain ⟨s, hs, heq⟩ := (parted_or_together hw hbox hspan).2
      fun p hp q hq => not_parted_of_surrounds hnarrow
        ((sub_le_sub (Box.holds_of_mem hq).1.2 (Box.holds_of_mem hp).1.1).trans
          hspan) (hshifted p hp) (hshifted q hq)
    exact ⟨s, hs, heq ▸ h⟩
  · rintro ⟨s, hs, h⟩
    rw [(shiftLines_eq_iff hw hbox hspan).2]
    · exact h
    · exact fun p hp => shiftOf_of_surrounds hw hnarrow hs
        (surrounds_of_linesInside h _ (hmem hp))

end

/-- Lines of at most half a world are shifted as a whole just if neither limit
is between two of their points. If the polygons are at most half a world wide,
the lines are within them just if they are after some shift as a whole. -/
theorem shift_together_iff {nothing : Box ℚ} {w : ℚ} {region : List (Polygon ℚ)}
    {lines : List (List (Position ℚ))} (hw : 0 < w)
    (hregion : region.flatten.flatten ≠ [])
    (hspan : (nothing.extendAll lines.flatten).maxX -
      (nothing.extendAll lines.flatten).minX ≤ w / 2) :
    ((∃ s, IsShift w s ∧ shiftLines nothing (regionBox nothing region) w lines =
        movedLines s lines) ↔
      ∀ p ∈ lines.flatten, ∀ q ∈ lines.flatten,
        ¬ Parted (regionBox nothing region) w p q) ∧
    ((regionBox nothing region).maxX - (regionBox nothing region).minX ≤ w / 2 →
      (linesWithin nothing w region lines = true ↔
        ∃ s, IsShift w s ∧
          linesInside nothing region (movedLines s lines) = true)) := by
  obtain ⟨v, hv⟩ := List.exists_mem_of_ne_nil _ hregion
  have hholds : (regionBox nothing region).Holds v := Box.holds_of_mem hv
  have hbox := hholds.1.1.trans hholds.1.2
  exact ⟨parted_or_together hw hbox hspan,
    linesWithin_iff_linesInside hw hbox hspan⟩

/-- A box turned inside out around a world that is 8192 wide. -/
def outsideIn : Box ℚ := ⟨9000, 9000, -9000, -9000⟩

/-- A region beside the antimeridian. -/
def eastern : List (Polygon ℚ) :=
  [[[⟨6000, 2000⟩, ⟨8000, 2000⟩, ⟨8000, 6000⟩, ⟨6000, 6000⟩, ⟨6000, 2000⟩]]]

/-- A line in that region, recorded on the other side of the antimeridian. -/
def recordedWest : List (List (Position ℚ)) :=
  [[⟨-1000, 4000⟩, ⟨-500, 4000⟩]]

theorem shift_together_iff_eastern :
    (0 : ℚ) < 8192 ∧ eastern.flatten.flatten ≠ [] ∧
      (outsideIn.extendAll recordedWest.flatten).maxX -
        (outsideIn.extendAll recordedWest.flatten).minX ≤ 8192 / 2 ∧
      (∀ p ∈ recordedWest.flatten, ∀ q ∈ recordedWest.flatten,
        ¬ Parted (regionBox outsideIn eastern) 8192 p q) ∧
      (regionBox outsideIn eastern).maxX - (regionBox outsideIn eastern).minX ≤
        8192 / 2 ∧
      ∃ s, IsShift 8192 s ∧
        linesInside outsideIn eastern (movedLines s recordedWest) = true := by
  have hregion : eastern.flatten.flatten ≠ [] := by decide
  have hspan : (outsideIn.extendAll recordedWest.flatten).maxX -
      (outsideIn.extendAll recordedWest.flatten).minX ≤ 8192 / 2 := by
    decide +kernel
  have hnarrow : (regionBox outsideIn eastern).maxX -
      (regionBox outsideIn eastern).minX ≤ 8192 / 2 := by
    decide +kernel
  obtain ⟨htogether, hanswer⟩ :=
    shift_together_iff (by norm_num) hregion hspan
  refine ⟨by norm_num, hregion, hspan, htogether.1 ?_, hnarrow,
    (hanswer hnarrow).1 (by decide +kernel)⟩
  exact ⟨8192, .inr (.inl rfl), by decide +kernel⟩

/-- A region that is nearly as wide as the world. -/
def nearlyAll : List (Polygon ℚ) :=
  [[[⟨200, 200⟩, ⟨8000, 200⟩, ⟨8000, 8000⟩, ⟨200, 8000⟩, ⟨200, 200⟩]]]

/-- A line across the antimeridian, which is not in that region. -/
def acrossAntimeridian : List (List (Position ℚ)) :=
  [[⟨-400, 4000⟩, ⟨400, 4000⟩]]

/-- The line is torn apart: one of its points is shifted and the other one is
not. It counts as within the region, and would not after any shift as a
whole. -/
theorem shift_tears_line :
    (outsideIn.extendAll acrossAntimeridian.flatten).maxX -
        (outsideIn.extendAll acrossAntimeridian.flatten).minX ≤ 8192 / 2 ∧
      shiftLines outsideIn (regionBox outsideIn nearlyAll) 8192
        acrossAntimeridian = [[⟨7792, 4000⟩, ⟨400, 4000⟩]] ∧
      (∀ s, IsShift 8192 s →
        movedLines s acrossAntimeridian ≠ [[⟨7792, 4000⟩, ⟨400, 4000⟩]]) ∧
      linesWithin outsideIn 8192 nearlyAll acrossAntimeridian = true ∧
      ∀ s, IsShift 8192 s → linesInside outsideIn nearlyAll
        (movedLines s acrossAntimeridian) = false := by
  refine ⟨by decide +kernel, by decide +kernel, ?_, by decide +kernel, ?_⟩
  · rintro s (rfl | rfl | rfl) <;> decide +kernel
  · rintro s (rfl | rfl | rfl) <;> decide +kernel

end MapStyle.Geometry
