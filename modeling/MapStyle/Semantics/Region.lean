import MapStyle.Context
import MapStyle.Geometry.Distance
import MapStyle.Geometry.Earth
import MapStyle.Geometry.Rings
import MapStyle.Geometry.Within

/-!
# The feature against a geometry

Whether the feature at hand lies within a region, and how far it is from some shapes. Both need the
feature's decoded geometry and the tile it belongs to; without them a feature is within nothing and
at no known distance.
-/

namespace MapStyle.Semantics

/-- Whether the feature lies within the region. Only points and lines can. -/
def within (ctx : Context) (region : List (Geometry.Polygon Float)) : Bool :=
  match ctx.positions?, ctx.tile, ctx.kind? with
  | some g, some tile, some .point => tile.pointsWithin region g.flatten
  | some g, some tile, some .lineString => tile.linesWithin region g
  | _, _, _ => false

/-- The shapes of a decoded geometry, in longitude and latitude. -/
def featureShapes (tile : Geometry.Tile) (kind : GeometryKind)
    (g : List (List (Geometry.Position Float))) : List (Geometry.Shape Float) :=
  match kind with
  | .point => [.points (g.flatten.map tile.unproject)]
  | .lineString => g.map fun line => .line (line.map tile.unproject)
  | .polygon =>
    (Geometry.classify g).map fun rings => .polygon (rings.map fun ring => ring.map tile.unproject)
  | .unknown => []

/-- The distance in meters from the feature to the nearest of the shapes, null when it is not
known. The ruler is that of the feature's first vertex. -/
def distance (ctx : Context) (shapes : List (Geometry.Shape Float)) : Value :=
  match ctx.positions?, ctx.tile, ctx.kind? with
  | some g, some tile, some kind =>
    let feature := featureShapes tile kind g
    match feature.findSome? Geometry.Shape.start? with
    | none => .null
    | some start =>
      let ruler := Geometry.Ruler.ofLatitude start.y
      match Geometry.Shape.distanceBetween ruler feature shapes with
      | some d => if d.isFinite then .number d else .null
      | none => .null
  | _, _, _ => .null

end MapStyle.Semantics
