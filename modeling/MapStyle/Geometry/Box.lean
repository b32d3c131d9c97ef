import MapStyle.Geometry.Planar
import MapStyle.Number.Constant

/-!
# Bounding boxes

The smallest box around some points, grown point by point. It starts as a box turned inside out,
which every point replaces; for doubles that is `Box.empty`, for exact numbers any box that lies
beyond all points in question will do.
-/

namespace MapStyle.Geometry

/-- A box with sides parallel to the axes. -/
structure Box (α : Type) where
  minX : α
  minY : α
  maxX : α
  maxY : α
  deriving Repr

namespace Box

def empty : Box Float :=
  ⟨Number.infinity, Number.infinity, -Number.infinity, -Number.infinity⟩

variable {α : Type} [LT α] [DecidableLT α] [BEq α]

def extend (box : Box α) (p : Position α) : Box α :=
  ⟨Number.lesser box.minX p.x, Number.lesser box.minY p.y,
    Number.greater box.maxX p.x, Number.greater box.maxY p.y⟩

def extendAll (box : Box α) (ps : List (Position α)) : Box α :=
  ps.foldl extend box

omit [BEq α] in
/-- Whether a box lies inside another without touching its sides. -/
def inside (box outer : Box α) : Bool :=
  decide (outer.minX < box.minX) && decide (box.maxX < outer.maxX) &&
    decide (outer.minY < box.minY) && decide (box.maxY < outer.maxY)

end Box

end MapStyle.Geometry
