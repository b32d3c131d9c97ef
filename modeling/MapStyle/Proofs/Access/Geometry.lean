import Mathlib.Data.List.Induction
import MapStyle.Operator.Apply
import MapStyle.Proofs.Access.Checked
import MapStyle.Semantics.Region

/-!
# Indices of vertices

Edges are read off windows of two vertices, and the vertex before another one
in a ring is found by counting around the ring. Both are in bounds for every
line and every ring, so nothing has to be known of a feature or a region, and
what is built on edges and areas carries the options along and no more.
-/

namespace MapStyle.Checked

open MapStyle.Geometry (Position Polygon Shape Ruler Box Tile)

variable {β : Type}

/-! ## Edges -/

/-- The runs of `n` neighbouring items. -/
def windows (n : Nat) : List β → List (List β)
  | [] => []
  | x :: xs =>
    if n ≤ (x :: xs).length then (x :: xs).take n :: windows n xs else []

def edges (line : List (Position Float)) :
    Option (List (Position Float × Position Float)) :=
  (windows 2 line).mapM fun window => do
    return (← window[0]?, ← window[1]?)

@[simp]
theorem edges_eq (line : List (Position Float)) :
    edges line = some (Geometry.edges line) := by
  match line with
  | [] | [_] => rfl
  | p :: q :: rest =>
      show (_ :: windows 2 (q :: rest)).mapM _ = _
      rw [List.mapM_cons]
      have ih := edges_eq (q :: rest)
      rw [edges] at ih
      rw [ih]
      rfl

/-- The edges of all rings of a polygon. -/
def allEdges (polygon : Polygon Float) :
    Option (List (Position Float × Position Float)) := do
  return (← polygon.mapM edges).flatten

@[simp]
theorem allEdges_eq (polygon : Polygon Float) :
    allEdges polygon = some (polygon.flatMap Geometry.edges) := by
  rw [allEdges, mapM_eq_some fun ring _ => edges_eq ring]
  rfl

/-! ## Inside a region -/

def polygonContains (polygon : Polygon Float) (onBoundary : Bool)
    (p : Position Float) : Option Bool := do
  let all ← allEdges polygon
  if all.any fun (a, b) => Geometry.onEdge p a b then return onBoundary
  else return all.countP (fun (a, b) => Geometry.rayCrosses p a b) % 2 == 1

@[simp]
theorem polygonContains_eq (polygon : Polygon Float) (onBoundary : Bool)
    (p : Position Float) : polygonContains polygon onBoundary p =
      some (Geometry.polygonContains polygon onBoundary p) := by
  rw [polygonContains, allEdges_eq, Geometry.polygonContains]
  exact (apply_ite some _ _ _).symm

def polygonContainsLine (polygon : Polygon Float)
    (line : List (Position Float)) : Option Bool := do
  let inside ← line.mapM (polygonContains polygon false)
  let segments ← edges line
  let all ← allEdges polygon
  return inside.all id && !segments.any fun (a, b) =>
    all.any fun (c, d) => Geometry.segmentsCross a b c d

@[simp]
theorem polygonContainsLine_eq (polygon : Polygon Float)
    (line : List (Position Float)) : polygonContainsLine polygon line =
      some (Geometry.polygonContainsLine polygon line) := by
  rw [polygonContainsLine, mapM_eq_some fun p _ => polygonContains_eq _ _ p,
    edges_eq, allEdges_eq, Geometry.polygonContainsLine]
  simp [List.all_map]

def containsPoints (region : List (Polygon Float))
    (points : List (Position Float)) : Option Bool := do
  let inside ← points.mapM fun p =>
    region.mapM fun polygon => polygonContains polygon false p
  return inside.all fun polygons => polygons.any id

@[simp]
theorem containsPoints_eq (region : List (Polygon Float))
    (points : List (Position Float)) : containsPoints region points =
      some (Geometry.containsPoints region points) := by
  have hregion (p : Position Float) :
      region.mapM (fun polygon => polygonContains polygon false p) = some _ :=
    mapM_eq_some fun polygon _ => polygonContains_eq polygon false p
  rw [containsPoints, mapM_eq_some fun p _ => hregion p,
    Geometry.containsPoints]
  simp [List.all_map, List.any_map, Function.comp_def]

def containsLines (region : List (Polygon Float))
    (lines : List (List (Position Float))) : Option Bool := do
  let inside ← lines.mapM fun line =>
    region.mapM fun polygon => polygonContainsLine polygon line
  return inside.all fun polygons => polygons.any id

@[simp]
theorem containsLines_eq (region : List (Polygon Float))
    (lines : List (List (Position Float))) : containsLines region lines =
      some (Geometry.containsLines region lines) := by
  have hregion (line : List (Position Float)) :
      region.mapM (fun polygon => polygonContainsLine polygon line) = some _ :=
    mapM_eq_some fun polygon _ => polygonContainsLine_eq polygon line
  rw [containsLines, mapM_eq_some fun line _ => hregion line,
    Geometry.containsLines]
  simp [List.all_map, List.any_map, Function.comp_def]

def pointsWithin (tile : Tile) (region : List (Polygon Float))
    (points : List (Position Float)) : Option Bool := do
  let region := tile.projectRegion region
  let box := Geometry.regionBox Box.empty region
  let points := (points.map tile.toWorld).map
    (Geometry.shiftInto box tile.worldSize)
  let contained ← containsPoints region points
  return (Box.empty.extendAll points).inside box && contained

@[simp]
theorem pointsWithin_eq (tile : Tile) (region : List (Polygon Float))
    (points : List (Position Float)) : pointsWithin tile region points =
      some (tile.pointsWithin region points) := by
  rw [pointsWithin, containsPoints_eq]
  rfl

def linesWithin (tile : Tile) (region : List (Polygon Float))
    (lines : List (List (Position Float))) : Option Bool := do
  let region := tile.projectRegion region
  let box := Geometry.regionBox Box.empty region
  let lines := Geometry.shiftLines Box.empty box tile.worldSize
    (lines.map fun line => line.map tile.toWorld)
  let contained ← containsLines region lines
  return (Box.empty.extendAll lines.flatten).inside box && contained

@[simp]
theorem linesWithin_eq (tile : Tile) (region : List (Polygon Float))
    (lines : List (List (Position Float))) : linesWithin tile region lines =
      some (tile.linesWithin region lines) := by
  rw [linesWithin, containsLines_eq]
  rfl

def within (ctx : Context) (region : List (Polygon Float)) : Option Bool :=
  match ctx.positions?, ctx.tile, ctx.kind? with
  | some g, some tile, some .point => pointsWithin tile region g.flatten
  | some g, some tile, some .lineString => linesWithin tile region g
  | _, _, _ => some false

theorem within_eq (ctx : Context) (region : List (Polygon Float)) :
    within ctx region = some (Semantics.within ctx region) := by
  unfold within Semantics.within
  cases ctx.positions? with
  | none => rfl
  | some g =>
      cases ctx.tile with
      | none => rfl
      | some tile =>
          rcases ctx.kind? with _ | _ | _ | _ | _
          · rfl
          · rfl
          · exact pointsWithin_eq tile region g.flatten
          · exact linesWithin_eq tile region g
          · rfl

/-! ## Distances -/

def shapeEdges : Shape Float →
    Option (List (Position Float × Position Float))
  | .points _ => some []
  | .line ps => edges ps
  | .polygon rings => allEdges rings

@[simp]
theorem shapeEdges_eq (shape : Shape Float) :
    shapeEdges shape = some shape.allEdges := by
  cases shape with
  | points ps => rfl
  | line ps => exact edges_eq ps
  | polygon rings => exact allEdges_eq rings

def pointToLine (ruler : Ruler Float) (p : Position Float)
    (line : List (Position Float)) : Option (Option Float) :=
  match line with
  | [only] => some (some (ruler.distance p only))
  | line => do
    let segments ← edges line
    return Geometry.nearest
      (segments.map fun (a, b) => some (ruler.toSegment p a b))

@[simp]
theorem pointToLine_eq (ruler : Ruler Float) (p : Position Float)
    (line : List (Position Float)) : pointToLine ruler p line =
      some (Shape.pointToLine ruler p line) := by
  match line with
  | [] | [_] => rfl
  | _ :: _ :: _ =>
      rw [pointToLine, edges_eq, Shape.pointToLine]
      · rfl
      · nofun
      · nofun

def fromPoint (ruler : Ruler Float) (p : Position Float) :
    Shape Float → Option (Option Float)
  | .points ps =>
    some (Geometry.nearest (ps.map fun q => some (ruler.distance p q)))
  | .line ps => pointToLine ruler p ps
  | .polygon rings => do
    if ← polygonContains rings true p then return some 0
    else return Geometry.nearest (← rings.mapM (pointToLine ruler p))

@[simp]
theorem fromPoint_eq (ruler : Ruler Float) (p : Position Float)
    (shape : Shape Float) : fromPoint ruler p shape =
      some (shape.fromPoint ruler p) := by
  cases shape with
  | points ps => rfl
  | line ps => exact pointToLine_eq ruler p ps
  | polygon rings =>
      rw [fromPoint, polygonContains_eq, Shape.fromPoint,
        mapM_eq_some fun ring _ => pointToLine_eq ruler p ring]
      exact (apply_ite some _ _ _).symm

def fromPoints (ruler : Ruler Float) (ps : List (Position Float))
    (shape : Shape Float) : Option (Option Float) := do
  return Geometry.nearest (← ps.mapM fun p => fromPoint ruler p shape)

@[simp]
theorem fromPoints_eq (ruler : Ruler Float) (ps : List (Position Float))
    (shape : Shape Float) : fromPoints ruler ps shape =
      some (Shape.fromPoints ruler ps shape) := by
  rw [fromPoints, mapM_eq_some fun p _ => fromPoint_eq ruler p shape]
  rfl

def overlaps (ruler : Ruler Float) (a b : Shape Float) : Option Bool := do
  let touches (d : Option Float) : Bool := d.any (· == 0)
  let segments ← shapeEdges a
  let others ← shapeEdges b
  let fromA ← a.vertices.mapM fun p => fromPoint ruler p b
  let fromB ← b.vertices.mapM fun p => fromPoint ruler p a
  return (segments.any fun (p, q) =>
      others.any fun (r, s) => Geometry.segmentsMeet p q r s) ||
    fromA.any touches || fromB.any touches

@[simp]
theorem overlaps_eq (ruler : Ruler Float) (a b : Shape Float) :
    overlaps ruler a b = some (Shape.overlaps ruler a b) := by
  rw [overlaps, shapeEdges_eq, shapeEdges_eq,
    mapM_eq_some fun p _ => fromPoint_eq ruler p b,
    mapM_eq_some fun p _ => fromPoint_eq ruler p a, Shape.overlaps]
  simp [List.any_map, Function.comp_def]

def shapeDistance (ruler : Ruler Float) :
    Shape Float → Shape Float → Option (Option Float)
  | .points ps, other => fromPoints ruler ps other
  | other, .points ps => fromPoints ruler ps other
  | a, b => do
    if ← overlaps ruler a b then return some 0
    else
      let fromA ← fromPoints ruler a.vertices b
      let fromB ← fromPoints ruler b.vertices a
      return Geometry.nearer fromA fromB

@[simp]
theorem shapeDistance_eq (ruler : Ruler Float) (a b : Shape Float) :
    shapeDistance ruler a b = some (Shape.distance ruler a b) := by
  have hedged (a b : Shape Float) : (do
      if ← overlaps ruler a b then return some 0
      else
        let fromA ← fromPoints ruler a.vertices b
        let fromB ← fromPoints ruler b.vertices a
        return Geometry.nearer fromA fromB) =
      some (if Shape.overlaps ruler a b then some 0
        else Geometry.nearer (Shape.fromPoints ruler a.vertices b)
          (Shape.fromPoints ruler b.vertices a)) := by
    rw [overlaps_eq, fromPoints_eq, fromPoints_eq]
    exact (apply_ite some _ _ _).symm
  cases a with
  | points ps => exact fromPoints_eq ruler ps b
  | line ps =>
      cases b with
      | points qs => exact fromPoints_eq ruler qs (.line ps)
      | line | polygon => exact hedged ..
  | polygon rings =>
      cases b with
      | points qs => exact fromPoints_eq ruler qs (.polygon rings)
      | line | polygon => exact hedged ..

def nearestPair (ruler : Ruler Float) (best : Option Float) :
    List (Shape Float × Shape Float) → Option (Option Float)
  | [] => some best
  | (a, b) :: rest => do
    let best := Geometry.nearer best (← shapeDistance ruler a b)
    if best.any (· == 0) then return some 0 else nearestPair ruler best rest

theorem nearestPair_eq (ruler : Ruler Float) (best : Option Float)
    (pairs : List (Shape Float × Shape Float)) :
    nearestPair ruler best pairs =
      some (Shape.nearestPair ruler best pairs) := by
  induction pairs generalizing best with
  | nil => rfl
  | cons pair rest ih =>
      simp only [nearestPair, Shape.nearestPair, shapeDistance_eq,
        Option.bind_eq_bind, Option.bind_some, ih]
      split <;> rfl

def distanceBetween (ruler : Ruler Float) (as bs : List (Shape Float)) :
    Option (Option Float) :=
  nearestPair ruler none (as.flatMap fun a => bs.map fun b => (a, b))

@[simp]
theorem distanceBetween_eq (ruler : Ruler Float) (as bs : List (Shape Float)) :
    distanceBetween ruler as bs =
      some (Shape.distanceBetween ruler as bs) :=
  nearestPair_eq ..

/-! ## Rings -/

theorem mapM_range {f? : Nat → Option β} {ys : List β}
    (h : ∀ i, (hi : i < ys.length) → f? i = some ys[i]) :
    (List.range ys.length).mapM f? = some ys := by
  induction ys using List.reverseRecOn with
  | nil => rfl
  | append_singleton ys y ih =>
      have hlast : f? ys.length = some y := by
        rw [h ys.length (by simp)]
        simp
      have hinit : (List.range ys.length).mapM f? = some ys := by
        refine ih fun i hi => ?_
        rw [h i (by simp; omega), List.getElem_append_left hi]
      rw [List.length_append, List.length_singleton, List.range_succ,
        List.mapM_append, hinit]
      simp [hlast]

/-- Every item with the one before it, the first one with the last. -/
def neighbours (xs : List β) : Option (List (β × β)) :=
  (List.range xs.length).mapM fun i => do
    let before ← xs[(← sub? (i + xs.length) 1) % xs.length]?
    return (before, ← xs[i]?)

theorem neighbours_eq (x : β) (xs : List β) : neighbours (x :: xs) =
    some (((x :: xs).getLast (List.cons_ne_nil x xs) :: x :: xs).zip
      (x :: xs)) := by
  have hlength : (x :: xs).length =
      (((x :: xs).getLast (List.cons_ne_nil x xs) :: x :: xs).zip
        (x :: xs)).length := by
    simp
  rw [neighbours]
  conv => lhs; arg 2; rw [hlength]
  refine mapM_range fun i hi => ?_
  rw [← hlength] at hi
  have hi' : i < ((x :: xs).getLast (List.cons_ne_nil x xs) ::
      x :: xs).length := Nat.lt_succ_of_lt hi
  have hbefore : (x :: xs)[(i + (x :: xs).length - 1) % (x :: xs).length]? =
      some ((x :: xs).getLast (List.cons_ne_nil x xs) :: x :: xs)[i] := by
    cases i with
    | zero =>
        rw [Nat.zero_add, Nat.mod_eq_of_lt (by simp),
          ← List.getLast?_eq_getElem?,
          List.getLast?_eq_some_getLast (List.cons_ne_nil x xs)]
        rfl
    | succ i =>
        rw [Nat.add_right_comm, Nat.add_sub_cancel, Nat.add_mod_right,
          Nat.mod_eq_of_lt (by omega),
          List.getElem?_eq_getElem (Nat.lt_of_succ_lt hi)]
        rfl
  rw [sub?_eq (by omega), Option.bind_eq_bind, Option.bind_some, hbefore,
    List.getElem?_eq_getElem hi, List.getElem_zip]
  rfl

def signedArea (ring : Geometry.Ring Float) : Option Float := do
  return (← neighbours ring).foldl
    (fun sum (p, q) => sum + (p.x - q.x) * (q.y + p.y)) 0

@[simp]
theorem signedArea_eq (ring : Geometry.Ring Float) :
    signedArea ring = some (Geometry.signedArea ring) := by
  cases ring with
  | nil => rfl
  | cons p rest =>
      rw [signedArea, neighbours_eq, Geometry.signedArea,
        List.getLast?_eq_some_getLast (List.cons_ne_nil p rest)]
      rfl

/-! ## Polygons -/

section Natural

variable {γ : Type} (f : β → γ)

theorem openGroups_map (opens : γ → Bool) (xs : List β) :
    Geometry.openGroups opens (xs.map f) =
      ((Geometry.openGroups (opens ∘ f) xs).1.map f,
        (Geometry.openGroups (opens ∘ f) xs).2.map (List.map f)) := by
  induction xs with
  | nil => rfl
  | cons x xs ih =>
      simp only [List.map_cons, Geometry.openGroups, ih, Function.comp_apply]
      split <;> rfl

theorem classifyBy_map (area : γ → Float) (xs : List β) :
    Geometry.classifyBy area (xs.map f) =
      (Geometry.classifyBy (area ∘ f) xs).map (List.map f) := by
  rw [Geometry.classifyBy, Geometry.classifyBy, List.filter_map]
  show (match (xs.filter fun b => !(area (f b) == 0)).map f with
    | [] => []
    | first :: rest => _) =
      List.map _ (match xs.filter fun b => !(area (f b) == 0) with
        | [] => []
        | first :: rest => _)
  cases xs.filter fun b => !(area (f b) == 0) with
  | nil => rfl
  | cons first rest =>
      let opens (c : γ) : Bool :=
        decide (area c < 0) == decide (area (f first) < 0)
      exact congrArg Prod.snd (openGroups_map f opens (first :: rest))

end Natural

/-- The polygons of a list of rings, by the areas of the rings. -/
def classify (rings : List (Geometry.Ring Float)) :
    Option (List (Polygon Float)) := do
  let measured ← rings.mapM fun ring => do return (ring, ← signedArea ring)
  return (Geometry.classifyBy Prod.snd measured).map (List.map Prod.fst)

@[simp]
theorem classify_eq (rings : List (Geometry.Ring Float)) :
    classify rings = some (Geometry.classify rings) := by
  have hmeasured (ring : Geometry.Ring Float) : (do
      return (ring, ← signedArea ring)) =
        some (ring, Geometry.signedArea ring) := by
    rw [signedArea_eq]
    rfl
  rw [classify, mapM_eq_some fun ring _ => hmeasured ring]
  show some ((Geometry.classifyBy Prod.snd (rings.map _)).map _) = _
  rw [classifyBy_map, List.map_map, Geometry.classify]
  simp [Function.comp_def]

def featureShapes (tile : Tile) (kind : GeometryKind)
    (g : List (List (Position Float))) : Option (List (Shape Float)) :=
  match kind with
  | .polygon => do
    let polygons ← classify g
    return polygons.map fun rings =>
      .polygon (rings.map fun ring => ring.map tile.unproject)
  | kind => some (Semantics.featureShapes tile kind g)

@[simp]
theorem featureShapes_eq (tile : Tile) (kind : GeometryKind)
    (g : List (List (Position Float))) : featureShapes tile kind g =
      some (Semantics.featureShapes tile kind g) := by
  cases kind with
  | polygon =>
      rw [featureShapes, classify_eq]
      rfl
  | _ => rfl

def distance (ctx : Context) (shapes : List (Shape Float)) : Option Value :=
  match ctx.positions?, ctx.tile, ctx.kind? with
  | some g, some tile, some kind => do
    let feature ← featureShapes tile kind g
    match feature.findSome? Shape.start? with
    | none => return .null
    | some start =>
      let ruler := Ruler.ofLatitude start.y
      match ← distanceBetween ruler feature shapes with
      | some d => return if d.isFinite then .number d else .null
      | none => return .null
  | _, _, _ => some .null

theorem distance_eq (ctx : Context) (shapes : List (Shape Float)) :
    distance ctx shapes = some (Semantics.distance ctx shapes) := by
  unfold distance Semantics.distance
  cases ctx.positions? with
  | none => rfl
  | some g =>
      cases ctx.tile with
      | none => rfl
      | some tile =>
          cases ctx.kind? with
          | none => rfl
          | some kind =>
              simp only [featureShapes_eq, Option.bind_eq_bind,
                Option.bind_some, distanceBetween_eq]
              cases (Semantics.featureShapes tile kind g).findSome?
                Shape.start? with
              | none => rfl
              | some start =>
                  simp only
                  cases Shape.distanceBetween (.ofLatitude start.y)
                    (Semantics.featureShapes tile kind g) shapes <;> rfl

/-- The name of a feature's geometry type. -/
def geometryType (f : Feature) : Option String :=
  match f.kind, f.geometry with
  | .polygon, some g => do
    return if 1 < (← classify g).length then "MultiPolygon" else f.kind.name
  | _, _ => some f.geometryType

theorem geometryType_eq (f : Feature) :
    geometryType f = some f.geometryType := by
  obtain ⟨id, kind, properties, geometry⟩ := f
  cases kind with
  | polygon =>
      cases geometry with
      | none => rfl
      | some g =>
          simp only [geometryType, classify_eq]
          rfl
  | _ => cases geometry <;> rfl

end MapStyle.Checked
