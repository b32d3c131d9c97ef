import Mathlib.Algebra.BigOperators.Group.List.Basic
import Mathlib.Algebra.Order.Ring.Defs
import Mathlib.Tactic.Ring
import MapStyle.Proofs.Geometry.Classification
import MapStyle.Proofs.Geometry.Rearranged

/-!
# The signed area of a ring

The sum by which rings are told apart goes by trapezoids under the edges. Over
exact numbers it is the shoelace sum, of the cross products of neighbouring
vertices all the way around (`signedArea_eq_shoelace`): on an edge the two
differ by the product of the coordinates of its start less that of its end, and
around a ring these cancel. So a ring that runs the other way around has the
opposite area, and if it has one at all, it has the opposite winding
(`counterclockwise_reverse`).
-/

namespace MapStyle.Geometry

section Edges

variable {α : Type}

/-- The edges of a ring and the one from its last vertex back to its first. -/
def closedEdges (ring : Ring α) : List (Position α × Position α) :=
  match ring.getLast? with
  | none => []
  | some last => edges (last :: ring)

theorem closedEdges_of_some {ring : Ring α} {last : Position α}
    (h : ring.getLast? = some last) :
    closedEdges ring = edges (last :: ring) := by
  rw [closedEdges, h]

/-- A ring that runs the other way around has its edges the other way around. -/
theorem closedEdges_reverse (ring : Ring α) :
    (closedEdges ring.reverse).Perm ((closedEdges ring).map Prod.swap) := by
  cases ring with
  | nil => exact .refl _
  | cons v vs =>
      obtain ⟨last, hlast⟩ := Option.isSome_iff_exists.1
        (List.getLast?_isSome.2 (List.cons_ne_nil v vs))
      obtain ⟨before, hbefore⟩ := List.getLast?_eq_some_iff.1 hlast
      have hreverse : (v :: vs).reverse = last :: before.reverse := by
        rw [hbefore, List.reverse_append, List.reverse_singleton,
          List.singleton_append]
      rw [closedEdges_of_some (List.getLast?_reverse.trans List.head?_cons),
        closedEdges_of_some hlast, hreverse, edges_cons_cons, edges_cons_cons,
        ← hreverse, edges_reverse, List.map_cons]
      exact ((List.reverse_perm _).map _).cons _

/-- Differences along a line add up to that of its ends. -/
theorem sum_edges_sub {β : Type} [AddCommGroup β] (g : Position α → β)
    (v : Position α) (line : List (Position α)) :
    ((edges (v :: line)).map fun e => g e.1 - g e.2).sum =
      g v - g (line.getLastD v) := by
  induction line generalizing v with
  | nil => exact (sub_self (g v)).symm
  | cons w line ih =>
      rw [edges_cons_cons, List.map_cons, List.sum_cons, ih, List.getLastD_cons,
        sub_add_sub_cancel]

end Edges

section Shoelace

variable {α : Type} [CommRing α]

/-- The sum of the cross products of neighbouring vertices, all the way
around. -/
def shoelace (ring : Ring α) : α :=
  ((closedEdges ring).map fun e => e.1.x * e.2.y - e.2.x * e.1.y).sum

theorem signedArea_eq_shoelace (ring : Ring α) :
    signedArea ring = shoelace ring := by
  cases hlast : ring.getLast? with
  | none =>
      rw [signedArea, shoelace, closedEdges, hlast, List.map_nil, List.sum_nil]
  | some last =>
      have hends : ring.getLastD last = last := by
        rw [List.getLastD_eq_getLast?, hlast, Option.getD_some]
      have htrapezoid (e : Position α × Position α) :
          (e.1.x - e.2.x) * (e.2.y + e.1.y) =
            (e.1.x * e.2.y - e.2.x * e.1.y) +
              (e.1.x * e.1.y - e.2.x * e.2.y) := by
        ring
      calc signedArea ring
          = ((edges (last :: ring)).map fun e =>
              (e.1.x - e.2.x) * (e.2.y + e.1.y)).sum := by
            rw [signedArea, hlast, List.sum_eq_foldl, List.foldl_map]
            rfl
        _ = shoelace ring + ((edges (last :: ring)).map fun e =>
              e.1.x * e.1.y - e.2.x * e.2.y).sum := by
            simp only [htrapezoid]
            rw [List.sum_map_add, shoelace, closedEdges_of_some hlast]
        _ = shoelace ring := by
            rw [sum_edges_sub (fun p => p.x * p.y), hends, sub_self, add_zero]

theorem shoelace_reverse (ring : Ring α) :
    shoelace ring.reverse = -shoelace ring := by
  rw [shoelace, ((closedEdges_reverse ring).map _).sum_eq, List.map_map,
    shoelace, List.sum_neg, List.map_map]
  congr 2
  funext e
  exact (neg_sub _ _).symm

theorem signedArea_reverse (ring : Ring α) :
    signedArea ring.reverse = -signedArea ring := by
  rw [signedArea_eq_shoelace, shoelace_reverse, signedArea_eq_shoelace]

end Shoelace

section Winding

variable {α : Type} [CommRing α] [LinearOrder α] [IsStrictOrderedRing α] [BEq α]
  [LawfulBEq α] {ring : Ring α}

omit [LinearOrder α] [IsStrictOrderedRing α] in
theorem hasArea_reverse (ring : Ring α) :
    hasArea ring.reverse = hasArea ring := by
  rw [hasArea, hasArea, signedArea_reverse, Bool.eq_iff_iff, Bool.not_eq_true',
    Bool.not_eq_true', beq_eq_false_iff_ne, beq_eq_false_iff_ne, neg_ne_zero]

theorem counterclockwise_reverse (h : hasArea ring = true) :
    counterclockwise ring.reverse = !counterclockwise ring := by
  have hzero : signedArea ring ≠ 0 := by
    rwa [hasArea, Bool.not_eq_true', beq_eq_false_iff_ne] at h
  rw [counterclockwise, counterclockwise, signedArea_reverse, ← decide_not,
    decide_eq_decide, neg_lt_zero, not_lt]
  exact ⟨le_of_lt, fun hle => lt_of_le_of_ne hle hzero.symm⟩

/-- A ring is an exterior with its own reverse as a hole. -/
theorem classify_reverse (h : hasArea ring = true) :
    classify [ring, ring.reverse] = [[ring, ring.reverse]] := by
  have hreverse := (hasArea_reverse ring).trans h
  refine Classified.classify_eq ⟨?_, ?_⟩
  · rw [List.filter_cons_of_pos h, List.filter_cons_of_pos hreverse]
    rfl
  · rintro polygon hpolygon
    obtain rfl := List.mem_singleton.1 hpolygon
    refine ⟨ring, List.find?_cons_of_pos h, ring, [ring.reverse], rfl, rfl, ?_⟩
    rintro hole hhole
    obtain rfl := List.mem_singleton.1 hhole
    exact counterclockwise_reverse h

end Winding

end MapStyle.Geometry
