import MapStyle.Number.Order

/-!
# Points, edges and polygons in the plane

The predicates behind containment and overlap. They use nothing but the field operations and the
order, and are generic in the numbers: doubles when the program runs, exact numbers in the theorems
about them.

A polygon is a list of rings whose edges join consecutive vertices; a ring that is meant to be
closed repeats its first vertex. A point is inside when a ray from it crosses the edges of all rings
together an odd number of times. On an edge neither answer follows from that, so the caller chooses.
-/

namespace MapStyle.Geometry

/-- A point: longitude and latitude, or coordinates in a tile, or in the world of a zoom level. -/
structure Position (α : Type) where
  x : α
  y : α
  deriving Repr, DecidableEq

abbrev Ring (α : Type) := List (Position α)

abbrev Polygon (α : Type) := List (Ring α)

/-- The edges between consecutive vertices. -/
def edges {α : Type} (line : List (Position α)) : List (Position α × Position α) :=
  line.zip line.tail

section Orientation

variable {α : Type} [Sub α] [Mul α] [Zero α] [LT α] [DecidableLT α] [LE α] [DecidableLE α] [BEq α]

/-- Whether `p` lies on the segment from `a` to `b`. -/
def onEdge (p a b : Position α) : Bool :=
  let x₁ := p.x - a.x
  let y₁ := p.y - a.y
  let x₂ := p.x - b.x
  let y₂ := p.y - b.y
  x₁ * y₂ - x₂ * y₁ == 0 && decide (x₁ * x₂ ≤ 0) && decide (y₁ * y₂ ≤ 0)

/-- The cross product of two vectors. -/
def cross (v w : Position α) : α :=
  v.x * w.y - v.y * w.x

/-- Whether two numbers have opposite signs, zero having none. -/
def opposite (s t : α) : Bool :=
  (decide (0 < s) && decide (t < 0)) || (decide (s < 0) && decide (0 < t))

/-- Whether `p₁` and `p₂` lie on different sides of the line through `q₁` and `q₂`. -/
def separates (p₁ p₂ q₁ q₂ : Position α) : Bool :=
  let x₁ := p₁.x - q₁.x
  let y₁ := p₁.y - q₁.y
  let x₂ := p₂.x - q₁.x
  let y₂ := p₂.y - q₁.y
  let x₃ := q₂.x - q₁.x
  let y₃ := q₂.y - q₁.y
  opposite (x₁ * y₃ - x₃ * y₁) (x₂ * y₃ - x₃ * y₂)

/-- Whether the segments from `a` to `b` and from `c` to `d` cross at a point inside both of them.
Parallel segments never cross. -/
def segmentsCross (a b c d : Position α) : Bool :=
  let p : Position α := ⟨b.x - a.x, b.y - a.y⟩
  let q : Position α := ⟨d.x - c.x, d.y - c.y⟩
  if cross q p == 0 then false else separates a b c d && separates c d a b

/-- On which side of the line from `p` to `q` the point `r` lies: a positive number to the left, a
negative one to the right, zero on the line. -/
def side (p q r : Position α) : α :=
  (q.x - p.x) * (r.y - p.y) - (q.y - p.y) * (r.x - p.x)

/-- Whether `r` lies in the box that the segment from `p` to `q` spans. -/
def inSpan (p q r : Position α) : Bool :=
  decide (Number.lesser p.x q.x ≤ r.x) && decide (r.x ≤ Number.greater p.x q.x) &&
    decide (Number.lesser p.y q.y ≤ r.y) && decide (r.y ≤ Number.greater p.y q.y)

/-- Whether the segments from `a` to `b` and from `c` to `d` have a point in common. -/
def segmentsMeet (a b c d : Position α) : Bool :=
  let d₁ := side c d a
  let d₂ := side c d b
  let d₃ := side a b c
  let d₄ := side a b d
  (opposite d₁ d₂ && opposite d₃ d₄) ||
    (d₁ == 0 && inSpan c d a) || (d₂ == 0 && inSpan c d b) ||
    (d₃ == 0 && inSpan a b c) || (d₄ == 0 && inSpan a b d)

end Orientation

section Containment

variable {α : Type} [Add α] [Sub α] [Mul α] [Div α] [Zero α] [LT α] [DecidableLT α] [LE α]
  [DecidableLE α] [BEq α]

/-- Whether the ray from `p` toward larger `x` crosses the edge from `a` to `b`. The lower end of an
edge belongs to it and the upper end does not, so that a ray through a vertex counts once. -/
def rayCrosses (p a b : Position α) : Bool :=
  decide (p.y < a.y) != decide (p.y < b.y) &&
    decide (p.x < (b.x - a.x) * (p.y - a.y) / (b.y - a.y) + a.x)

/-- Whether `p` is inside the polygon; `onBoundary` is the answer for points on an edge. -/
def polygonContains (polygon : Polygon α) (onBoundary : Bool) (p : Position α) : Bool :=
  let all := polygon.flatMap edges
  if all.any fun (a, b) => onEdge p a b then onBoundary
  else all.countP (fun (a, b) => rayCrosses p a b) % 2 == 1

/-- Whether every vertex of the line is strictly inside the polygon and no segment of it crosses an
edge. -/
def polygonContainsLine (polygon : Polygon α) (line : List (Position α)) : Bool :=
  line.all (polygonContains polygon false) &&
    !(edges line).any fun (a, b) =>
      (polygon.flatMap edges).any fun (c, d) => segmentsCross a b c d

end Containment

end MapStyle.Geometry
