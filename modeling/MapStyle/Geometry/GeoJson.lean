import MapStyle.Geometry.Planar
import MapStyle.Json.Basic

/-!
# Geometries in documents

The GeoJSON that geometry operators take as an operand. An object names its kind under `type` and
holds coordinates, a geometry or features; other fields are ignored. The kind may also come first in
an array of two, followed by what it holds, and inside another geometry it may be given by its
number.

`GeoJson.shapes?` flattens a geometry into points, lines and polygons, and refuses positions with
fewer than two coordinates or with one that is not finite.
-/

namespace MapStyle.Geometry

inductive GeoJson where
  | point (coordinates : List Float)
  | multiPoint (coordinates : List (List Float))
  | lineString (coordinates : List (List Float))
  | multiLineString (coordinates : List (List (List Float)))
  | polygon (coordinates : List (List (List Float)))
  | multiPolygon (coordinates : List (List (List (List Float))))
  | feature (geometry : Option GeoJson)
  | featureCollection (features : List GeoJson)

inductive GeoJson.Kind where
  | point
  | multiPoint
  | lineString
  | multiLineString
  | polygon
  | multiPolygon
  | feature
  | featureCollection
  deriving DecidableEq, Repr

inductive Shape (α : Type) where
  | points (ps : List (Position α))
  | line (ps : List (Position α))
  | polygon (rings : Polygon α)

namespace GeoJson

namespace Kind

def all : List Kind :=
  [.point, .multiPoint, .lineString, .multiLineString, .polygon, .multiPolygon, .feature,
    .featureCollection]

def name : Kind → String
  | .point => "Point"
  | .multiPoint => "MultiPoint"
  | .lineString => "LineString"
  | .multiLineString => "MultiLineString"
  | .polygon => "Polygon"
  | .multiPolygon => "MultiPolygon"
  | .feature => "Feature"
  | .featureCollection => "FeatureCollection"

/-- The kind that a document names, or numbers if it is `nested`. -/
def ofJson? (nested : Bool) : Json → Option Kind
  | .string s => all.find? (·.name == s)
  | .number (.integer n) => if nested && 0 ≤ n then all[n.toNat]? else none
  | _ => none

end Kind

/-- A list of which every item can be read. -/
def listOf? {β : Type} (item? : Json → Option β) (j : Json) : Option (List β) := do
  (← j.array?).mapM item?

/-- A geometry of a kind that is made of coordinates alone. -/
def ofCoordinates? (kind : Kind) (j : Json) : Option GeoJson :=
  let level₁ := listOf? Json.number?
  let level₂ := listOf? level₁
  let level₃ := listOf? level₂
  match kind with
  | .point => (level₁ j).map .point
  | .multiPoint => (level₂ j).map .multiPoint
  | .lineString => (level₂ j).map .lineString
  | .multiLineString => (level₃ j).map .multiLineString
  | .polygon => (level₃ j).map .polygon
  | .multiPolygon => (listOf? level₃ j).map .multiPolygon
  | .feature | .featureCollection => none

mutual

/-- The geometry that a document holds, where `nested` says that it is part of another. -/
def read? (nested : Bool) : Json → Option GeoJson
  | .object fields =>
    match (fields.lookup "type").bind (Kind.ofJson? nested) with
    | some .feature => (memberGeometry fields).map .feature
    | some .featureCollection => (readFeatures? fields).map .featureCollection
    | some kind => (fields.lookup "coordinates").bind (ofCoordinates? kind)
    | none => none
  | .array [head, body] =>
    match Kind.ofJson? nested head with
    | some .feature => (readOptional? body).map .feature
    | some .featureCollection => (readList? body).map .featureCollection
    | some kind => ofCoordinates? kind body
    | none => none
  | _ => none

/-- The geometry of a feature, which may be absent or null. -/
def memberGeometry : List (String × Json) → Option (Option GeoJson)
  | [] => some none
  | (key, j) :: rest => if key == "geometry" then readOptional? j else memberGeometry rest

def readFeatures? : List (String × Json) → Option (List GeoJson)
  | [] => none
  | (key, j) :: rest => if key == "features" then readList? j else readFeatures? rest

def readOptional? : Json → Option (Option GeoJson)
  | .null => some none
  | j => (read? true j).map some

def readList? : Json → Option (List GeoJson)
  | .array items => readItems? items
  | _ => none

def readItems? : List Json → Option (List GeoJson)
  | [] => some []
  | j :: rest =>
    match read? true j with
    | none => none
    | some g => (readItems? rest).map (g :: ·)

end

def ofJson? (j : Json) : Option GeoJson := read? false j

def position? : List Float → Option (Position Float)
  | x :: y :: _ => if x.isFinite && y.isFinite then some ⟨x, y⟩ else none
  | _ => none

def positions? (coordinates : List (List Float)) : Option (List (Position Float)) :=
  coordinates.mapM position?

def rings? (coordinates : List (List (List Float))) : Option (Polygon Float) :=
  coordinates.mapM positions?

mutual

/-- The points, lines and polygons of a geometry, in order. -/
def shapes? : GeoJson → Option (List (Shape Float))
  | .point c => (position? c).map fun p => [.points [p]]
  | .multiPoint c => (positions? c).map fun ps => [.points ps]
  | .lineString c => (positions? c).map fun ps => [.line ps]
  | .multiLineString c => (c.mapM positions?).map fun lines => lines.map .line
  | .polygon c => (rings? c).map fun rings => [.polygon rings]
  | .multiPolygon c => (c.mapM rings?).map fun polygons => polygons.map .polygon
  | .feature none => some []
  | .feature (some g) => shapes? g
  | .featureCollection gs => shapesOfAll? gs

def shapesOfAll? : List GeoJson → Option (List (Shape Float))
  | [] => some []
  | g :: gs =>
    match shapes? g, shapesOfAll? gs with
    | some here, some there => some (here ++ there)
    | _, _ => none

end

end GeoJson

end MapStyle.Geometry
