import MapStyle.Compile.Operand
import MapStyle.Geometry.GeoJson

/-!
# Geometry operands

Both geometry forms take a GeoJSON document as their one operand. Containment needs polygons, given
as such or among the parts of features; distance takes shapes of any kind.
-/

namespace MapStyle.Compile

open MapStyle.Geometry (GeoJson Shape Polygon)

def mayHoldRegion : GeoJson → Bool
  | .polygon _ | .multiPolygon _ | .feature _ | .featureCollection _ => true
  | .point _ | .multiPoint _ | .lineString _ | .multiLineString _ => false

/-- The polygons of a document, none if it is not a sound geometry. -/
def regionOf (raw : Json) : List (Polygon Float) :=
  let shapes := ((GeoJson.ofJson? raw).filter mayHoldRegion).bind GeoJson.shapes?
  (shapes.getD []).filterMap fun shape =>
    match shape with
    | .polygon rings => some rings
    | .points _ | .line _ => none

/-- The shapes of a document, none if it is not a sound geometry. -/
def shapesOf (raw : Json) : List (Shape Float) :=
  ((GeoJson.ofJson? raw).bind GeoJson.shapes?).getD []

def within (s : Site) (args : List Operand) : Compiled Expr :=
  match args with
  | [o] =>
    let region := regionOf o.raw
    if region.isEmpty then s.fail (.region "within") else return .within .boolean region
  | args => s.fail (.exactlyOne "within" args.length)

def distance (s : Site) (args : List Operand) : Compiled Expr :=
  match args with
  | [o] =>
    let shapes := shapesOf o.raw
    if shapes.isEmpty then s.fail (.region "distance") else return .distance .number shapes
  | args => s.fail (.exactlyOne "distance" args.length)

end MapStyle.Compile
