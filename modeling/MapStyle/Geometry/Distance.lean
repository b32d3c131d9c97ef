import MapStyle.Geometry.GeoJson
import MapStyle.Geometry.Ruler

/-!
# Distances between shapes

The shortest distance from one shape to another, measured with a ruler. Shapes that overlap have
distance zero; otherwise the shortest way starts or ends at a vertex, so it is enough to measure
from every vertex of either shape to the other one. A shape without vertices is at no distance from
anything.
-/

namespace MapStyle.Geometry

section

variable {α : Type} [LT α] [DecidableLT α] [BEq α]

/-- The smaller of two distances of which either may be missing. -/
def nearer : Option α → Option α → Option α
  | none, d => d
  | d, none => d
  | some a, some b => some (Number.lesser a b)

def nearest (ds : List (Option α)) : Option α :=
  ds.foldl nearer none

end

namespace Shape

def vertices {α : Type} : Shape α → List (Position α)
  | .points ps => ps
  | .line ps => ps
  | .polygon rings => rings.flatten

def allEdges {α : Type} : Shape α → List (Position α × Position α)
  | .points _ => []
  | .line ps => edges ps
  | .polygon rings => rings.flatMap edges

/-- The first vertex, of the first ring for a polygon. -/
def start? {α : Type} : Shape α → Option (Position α)
  | .points ps => ps.head?
  | .line ps => ps.head?
  | .polygon rings => rings.head?.bind List.head?

variable {α : Type} [Add α] [Sub α] [Mul α] [Div α] [Neg α] [Zero α] [One α] [NatCast α] [LT α]
  [DecidableLT α] [LE α] [DecidableLE α] [BEq α] [Measurable α]

def pointToLine (ruler : Ruler α) (p : Position α) (line : List (Position α)) : Option α :=
  match line with
  | [only] => some (ruler.distance p only)
  | line => nearest ((edges line).map fun (a, b) => some (ruler.toSegment p a b))

def fromPoint (ruler : Ruler α) (p : Position α) : Shape α → Option α
  | .points ps => nearest (ps.map fun q => some (ruler.distance p q))
  | .line ps => pointToLine ruler p ps
  | .polygon rings =>
    if polygonContains rings true p then some 0
    else nearest (rings.map (pointToLine ruler p))

def fromPoints (ruler : Ruler α) (ps : List (Position α)) (shape : Shape α) : Option α :=
  nearest (ps.map fun p => shape.fromPoint ruler p)

/-- Whether two shapes have a point in common, as far as edges that meet and vertices at distance
zero tell. -/
def overlaps (ruler : Ruler α) (a b : Shape α) : Bool :=
  let touches (d : Option α) : Bool := d.any (· == 0)
  (a.allEdges.any fun (p, q) => b.allEdges.any fun (r, s) => segmentsMeet p q r s) ||
    (a.vertices.any fun p => touches (b.fromPoint ruler p)) ||
    (b.vertices.any fun p => touches (a.fromPoint ruler p))

def distance (ruler : Ruler α) : Shape α → Shape α → Option α
  | .points ps, other => fromPoints ruler ps other
  | other, .points ps => fromPoints ruler ps other
  | a, b =>
    if overlaps ruler a b then some 0
    else nearer (fromPoints ruler a.vertices b) (fromPoints ruler b.vertices a)

/-- The shortest of a distance found so far and those between pairs of shapes. Nothing is shorter
than zero, so that the pairs after it are not measured. -/
def nearestPair (ruler : Ruler α) (best : Option α) : List (Shape α × Shape α) → Option α
  | [] => best
  | (a, b) :: rest =>
    let best := nearer best (a.distance ruler b)
    if best.any (· == 0) then some 0 else nearestPair ruler best rest

/-- The shortest distance between a shape of one list and a shape of another. -/
def distanceBetween (ruler : Ruler α) (as bs : List (Shape α)) : Option α :=
  nearestPair ruler none (as.flatMap fun a => bs.map fun b => (a, b))

end Shape

end MapStyle.Geometry
