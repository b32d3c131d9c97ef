import MapStyle.Geometry.Distance
import MapStyle.Proofs.Geometry.Angles
import MapStyle.Proofs.Geometry.Boxes
import MapStyle.Proofs.Geometry.Containment

/-!
# Distances to vertices

A shape is no farther away than any of its vertices, as every vertex lies on an
edge and an edge is measured to its nearest point. Edges are laid out in the
plane from where they start, though, and there the far end of an edge may be
more than half the world away from a point that it is near to the other way
around. The last vertex of a line that does not end where it starts has no
other edge to be measured by (`distance_misses_vertex`). This is the only way to
miss a vertex, and it never happens to points or to rings
(`distance_le_of_vertices`).
-/

namespace MapStyle.Geometry

noncomputable instance : Measurable ℝ := ⟨Real.sqrt⟩

namespace Ruler

variable (ruler : Ruler ℝ)

/-- How long a way is that leads so many degrees to the east and north. -/
noncomputable def span (east north : ℝ) : ℝ :=
  √((east * ruler.kx) ^ 2 + (north * ruler.ky) ^ 2)

variable {ruler} {p q a b : Position ℝ}

theorem distance_eq_span :
    ruler.distance p q = ruler.span (wrap (p.x - q.x)) (p.y - q.y) := by
  rw [span, pow_two, pow_two]
  rfl

theorem distance_nonneg : 0 ≤ ruler.distance p q := by
  rw [distance_eq_span]
  exact Real.sqrt_nonneg _

theorem span_le {east east' north : ℝ} (h : |east| ≤ |east'|) :
    ruler.span east north ≤ ruler.span east' north := by
  have hscaled : (east * ruler.kx) ^ 2 ≤ (east' * ruler.kx) ^ 2 := by
    rw [mul_pow, mul_pow]
    exact mul_le_mul_of_nonneg_right (sq_le_sq.2 h) (sq_nonneg _)
  exact Real.sqrt_le_sqrt (by linarith)

/-- The way around the world that is measured is the shortest. -/
theorem distance_le_span {east : ℝ} (k : ℤ) (h : east = p.x - q.x + k * 360) :
    ruler.distance p q ≤ ruler.span east (p.y - q.y) := by
  rw [distance_eq_span]
  exact span_le (abs_wrap_le k h)

theorem distance_comm : ruler.distance p q = ruler.distance q p := by
  have hle (p q : Position ℝ) : ruler.distance p q ≤ ruler.distance q p := by
    rw [distance_eq_span, distance_eq_span, ← neg_sub q.x p.x, ← neg_sub q.y p.y,
      span, span, neg_mul, neg_sq]
    refine span_le (abs_wrap_neg _).le
  exact le_antisymm (hle p q) (hle q p)

/-- Along a straight way, the nearer to the foot of the perpendicular the
shorter. -/
theorem span_le_of_nearer {u v w z t r s : ℝ}
    (hfoot : t * ((w * ruler.kx) ^ 2 + (z * ruler.ky) ^ 2) =
      u * ruler.kx * (w * ruler.kx) + v * ruler.ky * (z * ruler.ky))
    (h : |r - t| ≤ |s - t|) :
    ruler.span (u - r * w) (v - r * z) ≤ ruler.span (u - s * w) (v - s * z) := by
  have hsplit (s : ℝ) :
      ((u - s * w) * ruler.kx) ^ 2 + ((v - s * z) * ruler.ky) ^ 2 =
        (u * ruler.kx) ^ 2 + (v * ruler.ky) ^ 2 + ((s - t) ^ 2 - t ^ 2) *
          ((w * ruler.kx) ^ 2 + (z * ruler.ky) ^ 2) := by
    linear_combination 2 * s * hfoot
  rw [span, span, hsplit, hsplit]
  refine Real.sqrt_le_sqrt ((add_le_add_iff_left _).2 ?_)
  exact mul_le_mul_of_nonneg_right (sub_le_sub_right (sq_le_sq.2 h) _)
    (add_nonneg (sq_nonneg _) (sq_nonneg _))

variable (ruler p a b) in
/-- Which part of the segment lies before the foot of the perpendicular from
`p`. -/
noncomputable def foot : ℝ :=
  (wrap (p.x - a.x) * ruler.kx * (wrap (b.x - a.x) * ruler.kx) +
      (p.y - a.y) * ruler.ky * ((b.y - a.y) * ruler.ky)) /
    ((wrap (b.x - a.x) * ruler.kx) ^ 2 + ((b.y - a.y) * ruler.ky) ^ 2)

theorem toSegment_eq : ruler.toSegment p a b =
    if wrap (b.x - a.x) * ruler.kx = 0 ∧ (b.y - a.y) * ruler.ky = 0 then
      ruler.distance p a
    else if 1 < ruler.foot p a b then ruler.distance p b
    else if 0 < ruler.foot p a b then
      ruler.distance p ⟨a.x + wrap (b.x - a.x) * ruler.kx / ruler.kx *
          ruler.foot p a b,
        a.y + (b.y - a.y) * ruler.ky / ruler.ky * ruler.foot p a b⟩
    else ruler.distance p a := by
  simp only [toSegment, foot, pow_two, Bool.and_eq_true, beq_iff_eq]

variable (ruler p) in
theorem foot_mul (h : (wrap (b.x - a.x) * ruler.kx) ^ 2 +
      ((b.y - a.y) * ruler.ky) ^ 2 ≠ 0) :
    ruler.foot p a b * ((wrap (b.x - a.x) * ruler.kx) ^ 2 +
        ((b.y - a.y) * ruler.ky) ^ 2) =
      wrap (p.x - a.x) * ruler.kx * (wrap (b.x - a.x) * ruler.kx) +
        (p.y - a.y) * ruler.ky * ((b.y - a.y) * ruler.ky) :=
  div_mul_cancel₀ _ h

/-- The place that is measured to is no farther around the world than in the
plane around the start. -/
theorem distance_le_along (t : ℝ) {k : ℤ} {east north : ℝ}
    (heast : east = a.x + wrap (b.x - a.x) * t + k * 360)
    (hnorth : north = a.y + (b.y - a.y) * t) :
    ruler.distance p ⟨east, north⟩ ≤
      ruler.span (wrap (p.x - a.x) - t * wrap (b.x - a.x))
        (p.y - a.y - t * (b.y - a.y)) := by
  obtain ⟨m, hm, -⟩ := exists_wrap_eq (p.x - a.x)
  have hsame : p.y - a.y - t * (b.y - a.y) = p.y - north := by
    rw [hnorth]
    ring
  rw [hsame]
  refine distance_le_span (m + k) ?_
  rw [hm, heast]
  push_cast
  ring

section Segments

variable (hkx : 0 < ruler.kx) (hky : 0 < ruler.ky)

include hkx hky

/-- A segment is no farther than any of its points, as seen from `p` in the
plane around the start. -/
theorem toSegment_le_span {s : ℝ} (hs : 0 ≤ s) (hs' : s ≤ 1) :
    ruler.toSegment p a b ≤
      ruler.span (wrap (p.x - a.x) - s * wrap (b.x - a.x))
        (p.y - a.y - s * (b.y - a.y)) := by
  have hstart : ruler.distance p a ≤ ruler.span
      (wrap (p.x - a.x) - 0 * wrap (b.x - a.x)) (p.y - a.y - 0 * (b.y - a.y)) :=
    distance_le_along 0 (k := 0) (by simp) (by simp)
  rw [toSegment_eq]
  split
  case isTrue hpoint =>
    obtain ⟨hx, hy⟩ : wrap (b.x - a.x) = 0 ∧ b.y - a.y = 0 := by
      simpa [hkx.ne', hky.ne'] using hpoint
    rw [hx, hy, mul_zero] at hstart ⊢
    exact hstart
  case isFalse hlong =>
    have hlength : (wrap (b.x - a.x) * ruler.kx) ^ 2 +
        ((b.y - a.y) * ruler.ky) ^ 2 ≠ 0 := by
      contrapose! hlong
      simpa [add_eq_zero_iff_of_nonneg, sq_nonneg] using hlong
    have hfoot := foot_mul ruler p hlength
    split
    case isTrue hafter =>
      obtain ⟨n, hn, -⟩ := exists_wrap_eq (b.x - a.x)
      refine (distance_le_along 1 (k := -n) ?_ (by ring)).trans
        (span_le_of_nearer hfoot ?_)
      · rw [hn]
        push_cast
        ring
      · rw [abs_of_neg (by linarith), abs_of_neg (by linarith)]
        linarith
    case isFalse hbefore =>
      split
      case isTrue hpos =>
        rw [mul_div_cancel_right₀ _ hkx.ne', mul_div_cancel_right₀ _ hky.ne']
        refine (distance_le_along (ruler.foot p a b) (k := 0) (by simp)
          rfl).trans (span_le_of_nearer hfoot ?_)
        rw [sub_self, abs_zero]
        exact abs_nonneg _
      case isFalse hneg =>
        refine hstart.trans (span_le_of_nearer hfoot ?_)
        rw [abs_of_nonneg (by linarith), abs_of_nonneg (by linarith)]
        linarith

/-- A segment is no farther than the vertex where it starts. -/
theorem toSegment_le_start : ruler.toSegment p a b ≤ ruler.distance p a := by
  have h := toSegment_le_span hkx hky le_rfl zero_le_one (p := p) (a := a) (b := b)
  rwa [zero_mul, zero_mul, sub_zero, sub_zero, ← distance_eq_span] at h

/-- A segment is no farther than the vertex where it ends, unless that one is
nearer the other way around the world. -/
theorem toSegment_le_finish
    (h : |wrap (p.x - a.x) - wrap (b.x - a.x)| ≤ 180) :
    ruler.toSegment p a b ≤ ruler.distance p b := by
  obtain ⟨m, hm, -⟩ := exists_wrap_eq (p.x - a.x)
  obtain ⟨n, hn, -⟩ := exists_wrap_eq (b.x - a.x)
  obtain ⟨k, hk, -⟩ := exists_wrap_eq (p.x - b.x)
  have hle : |wrap (p.x - a.x) - wrap (b.x - a.x)| ≤ |wrap (p.x - b.x)| := by
    rw [← wrap_eq_self h]
    refine abs_wrap_le (k - m + n) ?_
    rw [hk, hm, hn]
    push_cast
    ring
  calc ruler.toSegment p a b
      ≤ ruler.span (wrap (p.x - a.x) - 1 * wrap (b.x - a.x))
          (p.y - a.y - 1 * (b.y - a.y)) :=
        toSegment_le_span hkx hky zero_le_one le_rfl
    _ ≤ ruler.span (wrap (p.x - b.x)) (p.y - b.y) := by
        rw [one_mul, one_mul, sub_sub_sub_cancel_right]
        exact span_le hle
    _ = ruler.distance p b := distance_eq_span.symm

end Segments

end Ruler

section Minima

variable {x : ℝ} {d e : Option ℝ}

/-- A distance is found, and it is not more than `x`. -/
def AtMost (x : ℝ) (d : Option ℝ) : Prop :=
  ∃ y, d = some y ∧ y ≤ x

theorem atMost_some {y : ℝ} (h : y ≤ x) : AtMost x (some y) :=
  ⟨y, rfl, h⟩

theorem AtMost.nearer_left (h : AtMost x d) : AtMost x (nearer d e) := by
  obtain ⟨y, rfl, hy⟩ := h
  cases e with
  | none => exact atMost_some hy
  | some z =>
      refine atMost_some ?_
      rw [Number.lesser_eq_min]
      exact min_le_of_left_le hy

theorem AtMost.nearer_right (h : AtMost x e) : AtMost x (nearer d e) := by
  obtain ⟨y, rfl, hy⟩ := h
  cases d with
  | none => exact atMost_some hy
  | some z =>
      refine atMost_some ?_
      rw [Number.lesser_eq_min]
      exact min_le_of_right_le hy

theorem atMost_nearest {ds : List (Option ℝ)} (hd : d ∈ ds) (h : AtMost x d) :
    AtMost x (nearest ds) := by
  suffices hall : ∀ best, d ∈ ds ∨ AtMost x best →
      AtMost x (ds.foldl nearer best) by
    exact hall none (.inl hd)
  clear hd
  induction ds with
  | nil => simp
  | cons e ds ih =>
      intro best hbest
      rw [List.foldl_cons]
      refine ih _ ?_
      obtain hmem | hbest := hbest
      · obtain rfl | hmem := List.mem_cons.1 hmem
        · exact .inr h.nearer_right
        · exact .inl hmem
      · exact .inr hbest.nearer_left

end Minima

/-! ## Lines -/

section Lines

variable {ruler : Ruler ℝ} {line : List (Position ℝ)} {p q : Position ℝ}

/-- Seen from `p`, no edge of a line accounts for a vertex: none starts there,
and those that end there have it more than half the world away from `p`. -/
def Overlooks (line : List (Position ℝ)) (p q : Position ℝ) : Prop :=
  1 < line.length ∧ ∀ e ∈ edges line, e.1 ≠ q ∧
    (e.2 = q → 180 < |Ruler.wrap (p.x - e.1.x) - Ruler.wrap (q.x - e.1.x)|)

theorem not_overlooks_head (h : line.head? = some q) : ¬ Overlooks line p q := by
  rintro ⟨hlong, hall⟩
  match line with
  | [] => simp at hlong
  | [_] => simp at hlong
  | v :: w :: rest =>
      exact (hall (v, w) (by simp [edges])).1 (by simpa using h)

theorem exists_edge_or_last (h : q ∈ line) :
    (∃ e ∈ edges line, e.1 = q) ∨ line.getLast? = some q := by
  induction line with
  | nil => cases h
  | cons v line ih =>
      cases line with
      | nil => simp_all
      | cons w line =>
          rw [edges_cons_cons, List.getLast?_cons_cons, List.exists_mem_cons_iff]
          obtain rfl | hmem := List.mem_cons.1 h
          · exact .inl (.inl rfl)
          · exact (ih hmem).imp_left .inr

/-- Only the last vertex of a line that does not end where it starts is ever
overlooked. -/
theorem not_overlooks_of_closed (h : q ∈ line) (hclosed : Closed line) :
    ¬ Overlooks line p q := by
  obtain ⟨e, he, hstart⟩ | hlast := exists_edge_or_last h
  · exact fun hover => (hover.2 e he).1 hstart
  · exact not_overlooks_head (hclosed.trans hlast)

theorem atMost_pointToLine (hkx : 0 < ruler.kx) (hky : 0 < ruler.ky)
    (hq : q ∈ line) (h : ¬ Overlooks line p q) :
    AtMost (ruler.distance p q) (Shape.pointToLine ruler p line) := by
  have hmeasure {e : Position ℝ × Position ℝ} (he : e ∈ edges line)
      (hnear : e.1 = q ∨ e.2 = q ∧
        |Ruler.wrap (p.x - e.1.x) - Ruler.wrap (q.x - e.1.x)| ≤ 180) :
      ruler.toSegment p e.1 e.2 ≤ ruler.distance p q := by
    obtain rfl | ⟨rfl, hhalf⟩ := hnear
    · exact Ruler.toSegment_le_start hkx hky
    · exact Ruler.toSegment_le_finish hkx hky hhalf
  match line with
  | [] => cases hq
  | [only] =>
      obtain rfl := List.mem_singleton.1 hq
      exact atMost_some le_rfl
  | v :: w :: rest =>
      have hlong : 1 < (v :: w :: rest).length := by simp
      simp only [Overlooks, hlong, true_and, not_forall, not_and_or, not_not,
        not_lt, exists_prop] at h
      obtain ⟨e, he, hnear⟩ := h
      exact atMost_nearest (List.mem_map.2 ⟨e, he, rfl⟩)
        (atMost_some (hmeasure he hnear))

end Lines

/-! ## Shapes -/

namespace Shape

/-- Seen from `p`, every line of the shape that has a vertex overlooks it. -/
def Overlooks (p q : Position ℝ) : Shape ℝ → Prop
  | .points _ => False
  | .line ps => Geometry.Overlooks ps p q
  | .polygon rings => ∀ ring ∈ rings, q ∈ ring → Geometry.Overlooks ring p q

/-- Two vertices of a pair of shapes are not compared. Unless one of the shapes
is of points only, the way between the vertices is looked for from both. -/
def Misses (p q : Position ℝ) : Shape ℝ → Shape ℝ → Prop
  | .points _, b => b.Overlooks p q
  | a, .points _ => a.Overlooks q p
  | a, b => b.Overlooks p q ∧ a.Overlooks q p

/-- All lines of a shape end where they start. -/
def Closes : Shape ℝ → Prop
  | .points _ => True
  | .line ps => Closed ps
  | .polygon rings => ∀ ring ∈ rings, Closed ring

variable {ruler : Ruler ℝ} {a b shape : Shape ℝ} {p q : Position ℝ}
  {ps : List (Position ℝ)}

theorem not_overlooks_of_closes (h : q ∈ shape.vertices)
    (hcloses : shape.Closes) : ¬ shape.Overlooks p q := by
  cases shape with
  | points _ => exact id
  | line _ => exact not_overlooks_of_closed h hcloses
  | polygon _ =>
      obtain ⟨ring, hring, hmem⟩ := List.mem_flatten.1 h
      exact fun hover => not_overlooks_of_closed hmem (hcloses ring hring)
        (hover ring hring hmem)

/-- From anywhere, some vertex is not overlooked. -/
theorem exists_not_overlooks (h : q ∈ shape.vertices) (p : Position ℝ) :
    ∃ v ∈ shape.vertices, ¬ shape.Overlooks p v := by
  have hhead {line : List (Position ℝ)} (hmem : q ∈ line) :
      ∃ v ∈ line, ¬ Geometry.Overlooks line p v := by
    cases line with
    | nil => cases hmem
    | cons v _ => exact ⟨v, List.mem_cons_self, not_overlooks_head rfl⟩
  cases shape with
  | points _ => exact ⟨q, h, id⟩
  | line _ => exact hhead h
  | polygon _ =>
      obtain ⟨ring, hring, hmem⟩ := List.mem_flatten.1 h
      obtain ⟨v, hv, hnot⟩ := hhead hmem
      exact ⟨v, List.mem_flatten.2 ⟨ring, hring, hv⟩,
        fun hover => hnot (hover ring hring hv)⟩

section Bounds

variable (hkx : 0 < ruler.kx) (hky : 0 < ruler.ky)

include hkx hky

theorem atMost_fromPoint (hq : q ∈ shape.vertices)
    (h : ¬ shape.Overlooks p q) :
    AtMost (ruler.distance p q) (shape.fromPoint ruler p) := by
  cases shape with
  | points _ =>
      exact atMost_nearest (List.mem_map.2 ⟨q, hq, rfl⟩) (atMost_some le_rfl)
  | line _ => exact atMost_pointToLine hkx hky hq h
  | polygon rings =>
      rw [fromPoint]
      split
      · exact atMost_some Ruler.distance_nonneg
      · simp only [Overlooks, not_forall] at h
        obtain ⟨ring, hring, hmem, hnot⟩ := h
        exact atMost_nearest (List.mem_map.2 ⟨ring, hring, rfl⟩)
          (atMost_pointToLine hkx hky hmem hnot)

theorem atMost_fromPoints (hp : p ∈ ps) (hq : q ∈ shape.vertices)
    (h : ¬ shape.Overlooks p q) :
    AtMost (ruler.distance p q) (fromPoints ruler ps shape) :=
  atMost_nearest (List.mem_map.2 ⟨p, hp, rfl⟩) (atMost_fromPoint hkx hky hq h)

theorem atMost_distance (hp : p ∈ a.vertices) (hq : q ∈ b.vertices)
    (h : ¬ Misses p q a b) :
    AtMost (ruler.distance p q) (a.distance ruler b) := by
  have hboth (hnot : ¬ (b.Overlooks p q ∧ a.Overlooks q p)) :
      AtMost (ruler.distance p q) (if overlaps ruler a b then some 0
        else nearer (fromPoints ruler a.vertices b)
          (fromPoints ruler b.vertices a)) := by
    split
    · exact atMost_some Ruler.distance_nonneg
    · obtain hb | ha := not_and_or.1 hnot
      · exact (atMost_fromPoints hkx hky hp hq hb).nearer_left
      · rw [Ruler.distance_comm]
        exact (atMost_fromPoints hkx hky hq hp ha).nearer_right
  cases a with
  | points _ => exact atMost_fromPoints hkx hky hp hq h
  | line _ | polygon _ =>
      cases b with
      | points _ =>
          rw [Ruler.distance_comm]
          exact atMost_fromPoints hkx hky hq hp h
      | line _ | polygon _ => exact hboth h

end Bounds

theorem not_misses_of_closes (hp : p ∈ a.vertices) (hq : q ∈ b.vertices)
    (ha : a.Closes) (hb : b.Closes) : ¬ Misses p q a b := by
  have hnota : ¬ a.Overlooks q p := not_overlooks_of_closes hp ha
  have hnotb : ¬ b.Overlooks p q := not_overlooks_of_closes hq hb
  cases a with
  | points _ => exact hnotb
  | line _ | polygon _ =>
      cases b with
      | points _ => exact hnota
      | line _ | polygon _ => exact fun h => hnotb h.1

theorem exists_not_misses (hp : p ∈ a.vertices) (hq : q ∈ b.vertices) :
    ∃ v ∈ a.vertices, ∃ w ∈ b.vertices, ¬ Misses v w a b := by
  obtain ⟨v, hv, hnota⟩ := exists_not_overlooks hp q
  obtain ⟨w, hw, hnotb⟩ := exists_not_overlooks hq p
  cases a with
  | points _ => exact ⟨p, hp, w, hw, hnotb⟩
  | line _ | polygon _ =>
      cases b with
      | points _ => exact ⟨v, hv, q, hq, hnota⟩
      | line _ | polygon _ => exact ⟨p, hp, w, hw, fun h => hnotb h.1⟩

/-- Between shapes that have vertices there is a distance, and it is no longer
than the one between any two vertices that are not missed; of shapes all of
whose lines end where they start none are. -/
theorem distance_le_of_vertices (hkx : 0 < ruler.kx) (hky : 0 < ruler.ky)
    (hp : p ∈ a.vertices) (hq : q ∈ b.vertices) :
    ∃ d, a.distance ruler b = some d ∧
      (¬ Misses p q a b → d ≤ ruler.distance p q) ∧
      (a.Closes → b.Closes → d ≤ ruler.distance p q) := by
  obtain ⟨v, hv, w, hw, hnot⟩ := exists_not_misses hp hq
  obtain ⟨d, hd, -⟩ := atMost_distance hkx hky hv hw hnot
  have hbound (h : ¬ Misses p q a b) : d ≤ ruler.distance p q := by
    obtain ⟨d', hd', hle⟩ := atMost_distance hkx hky hp hq h
    rw [hd, Option.some_inj] at hd'
    exact hd'.trans_le hle
  exact ⟨d, hd, hbound, fun ha hb => hbound (not_misses_of_closes hp hq ha hb)⟩

/-- From just west of the antimeridian to the far end of a line that leads
east from just behind it. -/
theorem distance_le_of_vertices_antimeridian :
    let ruler : Ruler ℝ := ⟨1, 1⟩
    let line : Shape ℝ := .line [⟨-179, 0⟩, ⟨-170, 0⟩]
    (0 < ruler.kx ∧ 0 < ruler.ky) ∧
      (⟨179, 0⟩ : Position ℝ) ∈ (points [⟨179, 0⟩]).vertices ∧
      ⟨-170, 0⟩ ∈ line.vertices ∧
      ∃ d, (points [⟨179, 0⟩]).distance ruler line = some d ∧
        d ≤ ruler.distance ⟨179, 0⟩ ⟨-170, 0⟩ := by
  intro ruler line
  have hscales : 0 < ruler.kx ∧ 0 < ruler.ky := ⟨one_pos, one_pos⟩
  have hp : (⟨179, 0⟩ : Position ℝ) ∈ (points [⟨179, 0⟩]).vertices :=
    List.mem_cons_self
  have hq : ⟨-170, 0⟩ ∈ line.vertices := by simp [line, vertices]
  obtain ⟨d, hd, hbound, -⟩ :=
    distance_le_of_vertices hscales.1 hscales.2 hp hq
  refine ⟨hscales, hp, hq, d, hd, hbound ?_⟩
  rintro ⟨-, hfar⟩
  have hhalf := (hfar (⟨-179, 0⟩, ⟨-170, 0⟩) (by simp [edges])).2 rfl
  have heast : Ruler.wrap ((179 : ℝ) - -179) = -2 :=
    Ruler.wrap_eq (-1) (by norm_num) (by norm_num [abs_lt])
  have hwest : Ruler.wrap ((-170 : ℝ) - -179) = 9 :=
    Ruler.wrap_eq 0 (by norm_num) (by norm_num [abs_lt])
  rw [heast, hwest] at hhalf
  norm_num [lt_abs] at hhalf

/-- The far end of a line that spans nearly half the world is missed from the
other side of the antimeridian. -/
theorem distance_misses_vertex :
    let ruler : Ruler ℝ := ⟨1, 1⟩
    let line : Shape ℝ := .line [⟨0, 0⟩, ⟨170, 0⟩]
    ⟨170, 0⟩ ∈ line.vertices ∧
      (points [⟨-150, 0⟩]).distance ruler line = some 150 ∧
      ruler.distance ⟨-150, 0⟩ ⟨170, 0⟩ = 40 := by
  intro ruler line
  have hline : Ruler.wrap ((170 : ℝ) - 0) = 170 :=
    Ruler.wrap_eq 0 (by norm_num) (by norm_num [abs_lt])
  have hback : Ruler.wrap ((-150 : ℝ) - 0) = -150 :=
    Ruler.wrap_eq 0 (by norm_num) (by norm_num [abs_lt])
  have hover : Ruler.wrap ((-150 : ℝ) - 170) = 40 :=
    Ruler.wrap_eq 1 (by norm_num) (by norm_num [abs_lt])
  have hstart : ruler.distance ⟨-150, 0⟩ ⟨0, 0⟩ = 150 := by
    rw [Ruler.distance_eq_span, Ruler.span, hback]
    norm_num [ruler]
  have hsegment : ruler.toSegment ⟨-150, 0⟩ ⟨0, 0⟩ ⟨170, 0⟩ = 150 := by
    rw [Ruler.toSegment_eq, Ruler.foot, hline, hback, hstart]
    norm_num [ruler]
  refine ⟨by simp [line, vertices], ?_, ?_⟩
  · exact congrArg some hsegment
  · rw [Ruler.distance_eq_span, Ruler.span, hover]
    norm_num [ruler]

end Shape

end MapStyle.Geometry
