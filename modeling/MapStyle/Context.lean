import MapStyle.Geometry.Mercator
import MapStyle.Value.Basic

/-!
# What an evaluation may read

The runtime inputs of an expression: the zoom level and other scalars of the renderer, the feature
at hand with its state, the tile its geometry belongs to, and the global state. `Parameter` names
the inputs that a property specification can allow or forbid.
-/

namespace MapStyle

/-- A runtime input that property specifications know by name. -/
inductive Parameter where
  | zoom
  | feature
  | featureState
  | heatmapDensity
  | lineProgress
  | accumulated
  deriving DecidableEq, Repr

namespace Parameter

def all : List Parameter :=
  [.zoom, .feature, .featureState, .heatmapDensity, .lineProgress, .accumulated]

/-- The parameters that do not belong to the feature. -/
def globals : List Parameter :=
  [.zoom, .heatmapDensity, .lineProgress, .accumulated]

def name : Parameter → String
  | .zoom => "zoom"
  | .feature => "feature"
  | .featureState => "feature-state"
  | .heatmapDensity => "heatmap-density"
  | .lineProgress => "line-progress"
  | .accumulated => "accumulated"

def ofName? (s : String) : Option Parameter :=
  all.find? (·.name == s)

end Parameter

inductive GeometryKind where
  | unknown
  | point
  | lineString
  | polygon
  deriving DecidableEq, Repr

def GeometryKind.name : GeometryKind → String
  | .unknown => "Unknown"
  | .point => "Point"
  | .lineString => "LineString"
  | .polygon => "Polygon"

/-- A feature. Its geometry, where decoded, is a list of point groups, lines or rings in the
coordinates of the tile. -/
structure Feature where
  id : Option Value := none
  kind : GeometryKind := .unknown
  properties : Fields := []
  geometry : Option (List (List (Geometry.Position Float))) := none

structure Context where
  zoom : Float := 0
  heatmapDensity : Option Float := none
  lineProgress : Option Float := none
  accumulated : Option Float := none
  feature : Option Feature := none
  featureState : Fields := []
  tile : Option Geometry.Tile := none
  globalState : Fields := []

namespace Context

/-- The id of the feature, null when there is none. -/
def id (ctx : Context) : Value :=
  (ctx.feature.bind Feature.id).getD .null

/-- A property of the feature. An absent property differs from one that is null. -/
def property? (ctx : Context) (key : String) : Option Value :=
  ctx.feature.bind fun f => f.properties.lookup key

def kind? (ctx : Context) : Option GeometryKind :=
  ctx.feature.map Feature.kind

def positions? (ctx : Context) : Option (List (List (Geometry.Position Float))) :=
  ctx.feature.bind Feature.geometry

/-- An entry of the feature's state, null when it is not set. -/
def stateValue (ctx : Context) (key : String) : Value :=
  (ctx.featureState.lookup key).getD .null

/-- A variable of the global state, null when it is not set. -/
def globalValue (ctx : Context) (key : String) : Value :=
  (ctx.globalState.lookup key).getD .null

end Context

end MapStyle
