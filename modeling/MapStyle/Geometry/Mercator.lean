import MapStyle.Geometry.Planar
import MapStyle.Number.Constant

/-!
# Tiles and the Mercator projection

The world is projected to a square and cut into `2 ^ z` by `2 ^ z` tiles, each of which has its own
coordinates from 0 to 8192. World coordinates at a zoom level count the same units across all tiles.
-/

namespace MapStyle.Geometry

open MapStyle.Number (pi)

/-- The address of a tile: zoom level, column and row. -/
structure Tile where
  z : Nat
  x : Nat
  y : Nat
  deriving Repr, DecidableEq

/-- The width of a tile in its own coordinates. -/
def tileExtent : Float := 8192.0

def mercatorX (lng : Float) : Float :=
  (180 + lng) / 360

def mercatorY (lat : Float) : Float :=
  (180 - (180 / pi * (pi / 4 + lat * pi / 360).tan.log)) / 360

def longitude (x : Float) : Float :=
  x * 360 - 180

def latitude (y : Float) : Float :=
  let y₂ := 180 - y * 360
  360 / pi * (y₂ * pi / 180).exp.atan - 90

namespace Tile

/-- How many tiles are side by side at the zoom level of this one. -/
def count (tile : Tile) : Float :=
  Float.ofNat (1 <<< tile.z)

/-- The width of the world at the zoom level of this tile. -/
def worldSize (tile : Tile) : Float :=
  tile.count * tileExtent

/-- The world coordinates of a longitude and latitude, to the nearest unit. -/
def project (tile : Tile) (p : Position Float) : Position Float :=
  ⟨(mercatorX p.x * tile.count * tileExtent).round, (mercatorY p.y * tile.count * tileExtent).round⟩

/-- The world coordinates of a point of the tile. -/
def toWorld (tile : Tile) (p : Position Float) : Position Float :=
  ⟨p.x + Float.ofNat tile.x * tileExtent, p.y + Float.ofNat tile.y * tileExtent⟩

/-- The longitude and latitude of a point of the tile. -/
def unproject (tile : Tile) (p : Position Float) : Position Float :=
  ⟨longitude ((p.x / tileExtent + Float.ofNat tile.x) / tile.count),
    latitude ((p.y / tileExtent + Float.ofNat tile.y) / tile.count)⟩

end Tile

end MapStyle.Geometry
