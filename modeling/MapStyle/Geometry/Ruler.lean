import MapStyle.Geometry.Planar

/-!
# Distances on a nearly flat earth

Around one latitude the earth is flat enough to measure with a ruler that has one scale per axis.
Longitudes go around, so a difference of longitudes is brought into a half turn either way before it
is scaled.

The loops that do so are written as they run, with no bound on the number of turns: with rounding, a
turn can be too small to make a difference. What a ruler needs of its numbers beyond the field
operations is a square root.
-/

namespace MapStyle.Geometry

/-- Numbers to measure with. -/
class Measurable (α : Type) where
  sqrt : α → α

/-- Meters per degree of longitude and of latitude. -/
structure Ruler (α : Type) where
  kx : α
  ky : α
  deriving Repr

namespace Ruler

variable {α : Type} [Add α] [Sub α] [Mul α] [Div α] [Neg α] [Zero α] [One α] [NatCast α] [LT α]
  [DecidableLT α] [BEq α]

/-- Steps for as long as a condition holds. -/
def stepWhile {β : Type} (continues : β → Bool) (step : β → β) (start : β) : β := Id.run do
  let mut state := start
  while continues state do
    state := step state
  return state

/-- Full turns up until the angle is not below -180 any more. -/
def raise (deg : α) : α :=
  stepWhile (fun deg => decide (deg < -((180 : Nat) : α))) (fun deg => deg + ((360 : Nat) : α)) deg

/-- Full turns down until the angle is not above 180 any more. -/
def lower (deg : α) : α :=
  stepWhile (fun deg => decide (((180 : Nat) : α) < deg)) (fun deg => deg - ((360 : Nat) : α)) deg

/-- The angle moved into -180 to 180 by full turns. -/
def wrap (deg : α) : α :=
  lower (raise deg)

variable [Measurable α]

def distance (ruler : Ruler α) (a b : Position α) : α :=
  let dx := wrap (a.x - b.x) * ruler.kx
  let dy := (a.y - b.y) * ruler.ky
  Measurable.sqrt (dx * dx + dy * dy)

/-- The distance from `p` to the nearest point of the segment from `a` to `b`. -/
def toSegment (ruler : Ruler α) (p a b : Position α) : α :=
  let dx := wrap (b.x - a.x) * ruler.kx
  let dy := (b.y - a.y) * ruler.ky
  if dx == 0 && dy == 0 then ruler.distance p a
  else
    let t := (wrap (p.x - a.x) * ruler.kx * dx + (p.y - a.y) * ruler.ky * dy) / (dx * dx + dy * dy)
    if 1 < t then ruler.distance p b
    else if 0 < t then ruler.distance p ⟨a.x + dx / ruler.kx * t, a.y + dy / ruler.ky * t⟩
    else ruler.distance p a

end Ruler

end MapStyle.Geometry
