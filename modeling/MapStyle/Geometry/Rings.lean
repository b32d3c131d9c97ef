import MapStyle.Geometry.Planar

/-!
# Rings of a decoded polygon

A tile stores the rings of a polygon feature one after another, and their winding says which belong
together: a ring wound like the first one starts a polygon, a ring wound the other way is a hole of
the polygon before it. Rings without area say nothing and are dropped.
-/

namespace MapStyle.Geometry

section

variable {α : Type} [Add α] [Sub α] [Mul α] [Zero α]

/-- Twice the area of a ring, positive for rings that run clockwise when `y` points down. -/
def signedArea (ring : Ring α) : α :=
  match ring.getLast? with
  | none => 0
  | some last =>
    ((last :: ring).zip ring).foldl (fun sum (p, q) => sum + (p.x - q.x) * (q.y + p.y)) 0

end

section

variable {β : Type}

/-- Cuts a list into groups, each of which starts at an element that opens one. The first part holds
the elements before any group. -/
def openGroups (opens : β → Bool) : List β → List β × List (List β)
  | [] => ([], [])
  | b :: rest =>
    let (followers, groups) := openGroups opens rest
    if opens b then ([], (b :: followers) :: groups) else (b :: followers, groups)

variable {α : Type} [LT α] [DecidableLT α] [Zero α] [BEq α]

/-- Groups elements by the areas of their rings: each group is an exterior and its holes. -/
def classifyBy (area : β → α) (rings : List β) : List (List β) :=
  let winding (b : β) : Bool := decide (area b < 0)
  match rings.filter fun b => !(area b == 0) with
  | [] => []
  | first :: rest => (openGroups (fun b => winding b == winding first) (first :: rest)).2

variable [Add α] [Sub α] [Mul α]

def classify (rings : List (Ring α)) : List (Polygon α) :=
  classifyBy signedArea rings

end

end MapStyle.Geometry
