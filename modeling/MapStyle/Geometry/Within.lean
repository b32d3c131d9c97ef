import MapStyle.Geometry.Box
import MapStyle.Geometry.Mercator

/-!
# Inside a region

Whether points or lines of a tile lie inside one of several polygons, all in world coordinates.

The world repeats every `worldSize` units, and a feature near the antimeridian may be recorded on
either side of it, so coordinates are first shifted by one world width when that brings them next to
the polygons. A comparison of bounding boxes settles most cases before any edge is looked at.
-/

namespace MapStyle.Geometry

section

variable {α : Type} [Add α] [Sub α] [Mul α] [Div α] [Neg α] [Zero α] [NatCast α] [LT α]
  [DecidableLT α] [LE α] [DecidableLE α] [BEq α]

/-- The shift that brings `x` within half a world of an edge. -/
def shiftToward (worldSize x edge : α) : α :=
  let half := worldSize / ((2 : Nat) : α)
  if half < x - edge then -worldSize
  else if half < edge - x then worldSize
  else 0

/-- The point shifted by one world width when that brings it next to the box. -/
def shiftInto (box : Box α) (worldSize : α) (p : Position α) : Position α :=
  if box.minX ≤ p.x && p.x ≤ box.maxX then p
  else
    let shift := shiftToward worldSize p.x box.minX
    let shift := if shift == 0 then shiftToward worldSize p.x box.maxX else shift
    ⟨p.x + shift, p.y⟩

/-- The box around the vertices of all polygons, grown from a box around nothing. -/
def regionBox (nothing : Box α) (region : List (Polygon α)) : Box α :=
  nothing.extendAll (region.flatten.flatten)

/-- Whether all points lie inside one of the polygons each. -/
def containsPoints (region : List (Polygon α)) (points : List (Position α)) : Bool :=
  points.all fun p => region.any fun polygon => polygonContains polygon false p

/-- Whether all lines lie inside one of the polygons each. -/
def containsLines (region : List (Polygon α)) (lines : List (List (Position α))) : Bool :=
  lines.all fun line => region.any fun polygon => polygonContainsLine polygon line

/-- Lines that span at most half the world, shifted next to the box; wider ones as they are. -/
def shiftLines (nothing box : Box α) (worldSize : α) (lines : List (List (Position α))) :
    List (List (Position α)) :=
  let spanned := nothing.extendAll lines.flatten
  if spanned.maxX - spanned.minX ≤ worldSize / ((2 : Nat) : α) then
    lines.map fun line => line.map (shiftInto box worldSize)
  else lines

def pointsWithin (nothing : Box α) (worldSize : α) (region : List (Polygon α))
    (points : List (Position α)) : Bool :=
  let box := regionBox nothing region
  let points := points.map (shiftInto box worldSize)
  (nothing.extendAll points).inside box && containsPoints region points

def linesWithin (nothing : Box α) (worldSize : α) (region : List (Polygon α))
    (lines : List (List (Position α))) : Bool :=
  let box := regionBox nothing region
  let lines := shiftLines nothing box worldSize lines
  (nothing.extendAll lines.flatten).inside box && containsLines region lines

end

/-- Polygons in longitude and latitude, projected to the zoom level of a tile. -/
def Tile.projectRegion (tile : Tile) (region : List (Polygon Float)) : List (Polygon Float) :=
  region.map fun polygon => polygon.map fun ring => ring.map tile.project

/-- Whether points of a tile lie inside a region of longitudes and latitudes. -/
def Tile.pointsWithin (tile : Tile) (region : List (Polygon Float))
    (points : List (Position Float)) : Bool :=
  Geometry.pointsWithin Box.empty tile.worldSize (tile.projectRegion region)
    (points.map tile.toWorld)

/-- Whether lines of a tile lie inside a region of longitudes and latitudes. -/
def Tile.linesWithin (tile : Tile) (region : List (Polygon Float))
    (lines : List (List (Position Float))) : Bool :=
  Geometry.linesWithin Box.empty tile.worldSize (tile.projectRegion region)
    (lines.map fun line => line.map tile.toWorld)

end MapStyle.Geometry
