import MapStyle.Geometry.Mercator
import MapStyle.Geometry.Ruler

/-!
# The ruler of a latitude

The scales of a ruler follow from the ellipsoid: its equatorial radius in kilometers and its
flattening.
-/

namespace MapStyle.Geometry

open MapStyle.Number (pi)

instance : Measurable Float where
  sqrt := Float.sqrt

namespace Ruler

def radius : Float := 6378.137

def flattening : Float := 1.0 / 298.257223563

/-- The ruler that is accurate around a latitude. -/
def ofLatitude (lat : Float) : Ruler Float :=
  let e2 := flattening * (2 - flattening)
  let m := pi / 180 * radius * 1000
  let coslat := (lat * (pi / 180)).cos
  let w2 := 1 / (1 - e2 * (1 - coslat * coslat))
  let w := w2.sqrt
  ⟨m * w * coslat, m * w * w2 * (1 - e2)⟩

end Ruler

end MapStyle.Geometry
