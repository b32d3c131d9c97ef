import Mathlib.Data.List.Perm.Basic
import Mathlib.Data.Sym.Sym2
import Mathlib.Logic.Relation
import MapStyle.Proofs.Geometry.Parity

/-!
# Polygons that are written in another way

A ring may run the other way around, a closed ring may start at another of its
vertices, and the rings of a polygon may come in any order: that is the same
region (`Rearranged`). The test for points sees the same, because all it makes
of a polygon is how often each pair of neighbouring vertices occurs in it
(`polygonContains_congr`), whichever of the two comes first. Over exact numbers
an edge is tested the same from either end.
-/

namespace MapStyle.Geometry

/-! ## Edges without direction -/

section Sides

variable {α : Type}

/-- The edges of a ring, regardless of which end comes first. -/
def ringSides (ring : Ring α) : List (Sym2 (Position α)) :=
  (edges ring).map fun e => s(e.1, e.2)

def sides (polygon : Polygon α) : List (Sym2 (Position α)) :=
  polygon.flatMap ringSides

/-- A line that is cut at a vertex has the edges of both parts. -/
theorem edges_append (before after : List (Position α)) (v : Position α) :
    edges (before ++ v :: after) = edges (before ++ [v]) ++ edges (v :: after) := by
  induction before with
  | nil => rfl
  | cons u before ih =>
      cases before with
      | nil => rfl
      | cons w before =>
          simp only [List.cons_append, edges_cons_cons] at ih ⊢
          rw [ih]

theorem edges_reverse (line : List (Position α)) :
    edges line.reverse = (edges line).reverse.map Prod.swap := by
  induction line with
  | nil => rfl
  | cons v line ih =>
      cases line with
      | nil => rfl
      | cons w line =>
          rw [List.reverse_cons, List.reverse_cons, List.append_assoc,
            List.singleton_append, edges_append, ← List.reverse_cons, ih,
            edges_cons_cons v w line, List.reverse_cons, List.map_append]
          rfl

/-- One change to how a polygon is written. -/
inductive Rearranged : Polygon α → Polygon α → Prop where
  /-- A ring that runs the other way around. -/
  | reversed (before : Polygon α) (ring : Ring α) (after : Polygon α) :
      Rearranged (before ++ ring :: after) (before ++ ring.reverse :: after)
  /-- A closed ring from `v` around to `v` that starts at another vertex `w`. -/
  | restarted (before : Polygon α) (v : Position α) (vs : List (Position α))
      (w : Position α) (ws : List (Position α)) (after : Polygon α) :
      Rearranged (before ++ (v :: vs ++ w :: ws ++ [v]) :: after)
        (before ++ (w :: ws ++ v :: vs ++ [w]) :: after)
  /-- Rings in another order. -/
  | reordered {polygon polygon' : Polygon α} (h : polygon.Perm polygon') :
      Rearranged polygon polygon'

theorem sides_replace {ring ring' : Ring α} (before after : Polygon α)
    (h : (ringSides ring).Perm (ringSides ring')) :
    (sides (before ++ ring :: after)).Perm
      (sides (before ++ ring' :: after)) := by
  simp only [sides, List.flatMap_append, List.flatMap_cons]
  exact (h.append_right _).append_left _

theorem ringSides_reverse (ring : Ring α) :
    ringSides ring.reverse = (ringSides ring).reverse := by
  rw [ringSides, ringSides, edges_reverse, List.map_map, List.map_reverse]
  congr 1
  exact List.map_congr_left fun e _ => Sym2.eq_swap

/-- A ring that starts elsewhere has the same edges, in another order. -/
theorem edges_restart (v w : Position α) (vs ws : List (Position α)) :
    (edges (v :: vs ++ w :: ws ++ [v])).Perm
      (edges (w :: ws ++ v :: vs ++ [w])) := by
  have hcut (v w : Position α) (vs ws : List (Position α)) :
      edges (v :: vs ++ w :: ws ++ [v]) =
        edges (v :: vs ++ [w]) ++ edges (w :: ws ++ [v]) := by
    rw [List.append_assoc, List.cons_append (a := w), edges_append]
  rw [hcut, hcut w]
  exact List.perm_append_comm

theorem Rearranged.sides_perm {polygon polygon' : Polygon α}
    (h : Rearranged polygon polygon') :
    (sides polygon).Perm (sides polygon') := by
  cases h with
  | reversed before ring after =>
      refine sides_replace before after ?_
      rw [ringSides_reverse]
      exact (List.reverse_perm _).symm
  | restarted before v vs w ws after =>
      exact sides_replace before after ((edges_restart v w vs ws).map _)
  | reordered h => exact h.flatMap_right ringSides

end Sides

/-! ## Tests of an edge -/

section Tests

variable {α : Type} [Field α] [LinearOrder α] [BEq α] [LawfulBEq α]
  {polygon polygon' : Polygon α}

theorem onEdge_comm (p a b : Position α) : onEdge p a b = onEdge p b a := by
  have hcross : (p.x - a.x) * (p.y - b.y) - (p.x - b.x) * (p.y - a.y) = 0 ↔
      (p.x - b.x) * (p.y - a.y) - (p.x - a.x) * (p.y - b.y) = 0 := by
    rw [sub_eq_zero, sub_eq_zero, eq_comm]
  rw [Bool.eq_iff_iff]
  simp only [onEdge, Bool.and_eq_true, beq_iff_eq, decide_eq_true_eq, hcross,
    mul_comm (p.x - a.x) (p.x - b.x), mul_comm (p.y - a.y) (p.y - b.y)]

omit [BEq α] [LawfulBEq α] in
theorem rayCrosses_comm (p a b : Position α) :
    rayCrosses p a b = rayCrosses p b a := by
  have hheight (hne : decide (p.y < a.y) ≠ decide (p.y < b.y)) :
      atHeight p b a = atHeight p a b :=
    atHeight_swap (sub_ne_zero.2 fun heq => hne (by rw [heq]))
  rw [rayCrosses_eq fun hne => congrArg (fun q => decide (p.x < q.x))
      (hheight hne).symm, rayCrosses_eq fun _ => rfl, Bool.xor_comm]

/-- Whether a point is on an edge. -/
def sideHolds (p : Position α) : Sym2 (Position α) → Bool :=
  Sym2.lift ⟨onEdge p, onEdge_comm p⟩

/-- Whether the ray from a point crosses an edge. -/
def sideCrossed (p : Position α) : Sym2 (Position α) → Bool :=
  Sym2.lift ⟨rayCrosses p, rayCrosses_comm p⟩

/-- Whether a point is in a polygon can be told from the edges alone. -/
theorem polygonContains_eq_sides (polygon : Polygon α) (onBoundary : Bool)
    (p : Position α) :
    polygonContains polygon onBoundary p =
      if (sides polygon).any (sideHolds p) then onBoundary
      else (sides polygon).countP (sideCrossed p) % 2 == 1 := by
  have hsides : sides polygon =
      (polygon.flatMap edges).map fun e => s(e.1, e.2) :=
    List.map_flatMap.symm
  rw [polygonContains, hsides, List.any_map, List.countP_map]
  rfl

/-- Neither the order of the edges nor their direction matters. -/
theorem polygonContains_congr (h : (sides polygon).Perm (sides polygon'))
    (onBoundary : Bool) (p : Position α) :
    polygonContains polygon onBoundary p =
      polygonContains polygon' onBoundary p := by
  rw [polygonContains_eq_sides, polygonContains_eq_sides, h.any_eq, h.countP_eq]

/-! ## One edge after the other -/

/-- The answer that is found by going through edges in order: whether the ray
has crossed an odd number of them so far, unless one of them has the point. -/
def scan (onBoundary : Bool) (p : Position α) :
    Bool → List (Position α × Position α) → Bool
  | inside, [] => inside
  | inside, (a, b) :: rest =>
    if onEdge p a b then onBoundary
    else scan onBoundary p (inside ^^ rayCrosses p a b) rest

omit [LawfulBEq α] in
theorem scan_eq (onBoundary : Bool) (p : Position α) (inside : Bool)
    (es : List (Position α × Position α)) :
    scan onBoundary p inside es =
      if es.any fun (a, b) => onEdge p a b then onBoundary
      else inside ^^ oddMany (fun (a, b) => rayCrosses p a b) es := by
  induction es generalizing inside with
  | nil => simp [scan, oddMany_nil]
  | cons e es ih =>
      obtain ⟨a, b⟩ := e
      rw [scan, List.any_cons, oddMany_cons, ih, Bool.xor_assoc]
      dsimp only
      by_cases hon : onEdge p a b = true
      · simp only [hon, if_true, Bool.true_or]
      · simp only [hon, Bool.false_or, Bool.false_eq_true, if_false]

omit [LawfulBEq α] in
theorem scan_edges (polygon : Polygon α) (onBoundary : Bool)
    (p : Position α) :
    scan onBoundary p false (polygon.flatMap edges) =
      polygonContains polygon onBoundary p := by
  rw [scan_eq, Bool.false_xor, polygonContains]
  rfl

end Tests

/-- Whether a point is in a polygon, with either answer on the boundary, does
not change when rings are turned around, closed rings are started at other
vertices and the rings are put in another order, any number of times. Nor does
it when the edges are tested one after the other until one has the point. -/
theorem polygonContains_of_rearranged {polygon polygon' : Polygon ℚ}
    (h : Relation.ReflTransGen Rearranged polygon polygon')
    (onBoundary : Bool) (p : Position ℚ) :
    polygonContains polygon onBoundary p =
        polygonContains polygon' onBoundary p ∧
      polygonContains polygon onBoundary p =
        scan onBoundary p false (polygon'.flatMap edges) := by
  have hsides : (sides polygon).Perm (sides polygon') := by
    induction h with
    | refl => exact .rfl
    | tail _ hstep ih => exact ih.trans hstep.sides_perm
  rw [scan_edges, and_self]
  exact polygonContains_congr hsides onBoundary p

/-- A square with a hole. -/
def frame : Polygon ℚ :=
  [[⟨0, 0⟩, ⟨8, 0⟩, ⟨8, 8⟩, ⟨0, 8⟩, ⟨0, 0⟩],
    [⟨2, 2⟩, ⟨2, 6⟩, ⟨6, 6⟩, ⟨6, 2⟩, ⟨2, 2⟩]]

/-- The same with the hole first, which runs the other way around from another
corner. -/
def frameAgain : Polygon ℚ :=
  [[⟨6, 2⟩, ⟨6, 6⟩, ⟨2, 6⟩, ⟨2, 2⟩, ⟨6, 2⟩],
    [⟨0, 0⟩, ⟨8, 0⟩, ⟨8, 8⟩, ⟨0, 8⟩, ⟨0, 0⟩]]

/-- A point on the hole and one beside it. -/
theorem polygonContains_of_rearranged_frame :
    Relation.ReflTransGen Rearranged frame frameAgain ∧
      polygonContains frame true ⟨6, 4⟩ =
        polygonContains frameAgain true ⟨6, 4⟩ ∧
      polygonContains frame false ⟨1, 4⟩ =
        scan false ⟨1, 4⟩ false (frameAgain.flatMap edges) := by
  have hframe : Relation.ReflTransGen Rearranged frame frameAgain := by
    refine .head (.reversed [[⟨0, 0⟩, ⟨8, 0⟩, ⟨8, 8⟩, ⟨0, 8⟩, ⟨0, 0⟩]]
      [⟨2, 2⟩, ⟨2, 6⟩, ⟨6, 6⟩, ⟨6, 2⟩, ⟨2, 2⟩] []) ?_
    refine .head (.restarted [[⟨0, 0⟩, ⟨8, 0⟩, ⟨8, 8⟩, ⟨0, 8⟩, ⟨0, 0⟩]]
      ⟨2, 2⟩ [] ⟨6, 2⟩ [⟨6, 6⟩, ⟨2, 6⟩] []) ?_
    exact .single (.reordered (.swap _ _ []))
  exact ⟨hframe, (polygonContains_of_rearranged hframe true ⟨6, 4⟩).1,
    (polygonContains_of_rearranged hframe false ⟨1, 4⟩).2⟩

end MapStyle.Geometry
