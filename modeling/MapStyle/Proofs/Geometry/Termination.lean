import MapStyle.Operator.Standard
import MapStyle.Proofs.Geometry.Classification
import MapStyle.Proofs.Geometry.Runs
import MapStyle.Proofs.Parse.Compiler

/-!
# When measuring a distance ends

The only loops of a distance that are not over a list are those that wrap an
angle. They end for the angles up to `2 ^ 62`, and what is wrapped is a
difference of two longitudes. The longitudes of the shapes are given; those of
the feature follow from its coordinates in the tile, which are divided by the
width of a tile before they become degrees (`bounded_unproject`). So a distance
is measured in finitely many steps if all these numbers are at most `2 ^ 60`
(`distance_ends`), and a longitude of `1e19` shows that it need not be if they
are not (`distance_runs_on`).
-/

namespace MapStyle

open Number

namespace Geometry

/-! ## Rings of a feature -/

theorem mem_of_mem_classify {rings : List (Ring Float)}
    {polygon : Polygon Float} {ring : Ring Float}
    (hpolygon : polygon ∈ classify rings) (hring : ring ∈ polygon) :
    ring ∈ rings := by
  have hkept : ring ∈ rings.filter hasArea := by
    rw [← (classified_classify rings).flatten_eq]
    exact List.mem_flatten_of_mem hpolygon hring
  exact List.mem_of_mem_filter hkept

/-! ## Coordinates of a feature -/

theorem value_tileExtent :
    tileExtent.isFinite = true ∧ value tileExtent = 2 ^ 13 := by
  have h := value_ofNat_of_le (n := 8192) (by decide)
  rw [show tileExtent = Float.ofNat 8192 from rfl]
  exact ⟨h.1, by rw [h.2]; norm_num⟩

theorem one_le_count (tile : Tile) (h : tile.count.isFinite = true) :
    2 ^ 0 ≤ |value tile.count| := by
  have hpos : 1 ≤ 1 <<< tile.z := by
    rw [Nat.one_shiftLeft]
    exact Nat.one_le_two_pow
  have hnear := (roundsTo_ofNat (1 <<< tile.z)).nearest_of_isFinite h
  have hone : (1 : ℚ) ≤ value tile.count :=
    hnear.ge_of_ge (by exact_mod_cast representable_intCast (n := 1) (by decide))
      (by exact_mod_cast hpos)
  rw [pow_zero]
  exact hone.trans (le_abs_self _)

theorem bounded_ofNat {k n : ℕ} (hk : k ≤ 2 ^ n) (hn : n < 1024) :
    Bounded n (Float.ofNat k) := by
  refine (roundsTo_ofNat k).bounded ?_ hn
  rw [Nat.abs_cast]
  exact_mod_cast hk

theorem bounded_unproject {tile : Tile} {p : Position Float}
    (hcolumn : tile.x ≤ 2 ^ 32) (hp : Bounded 60 p.x) :
    Bounded 60 (tile.unproject p).x := by
  have hin : Bounded 47 (p.x / tileExtent) :=
    Bounded.div (m := 13) hp
      (fun _ => by rw [value_tileExtent.2, abs_of_pos (by norm_num)])
      (by decide)
  have hcount : Bounded 48
      ((p.x / tileExtent + Float.ofNat tile.x) / tile.count) :=
    (hin.add ((bounded_ofNat hcolumn (by decide)).mono (by decide))
      (by decide)).div (m := 0) (one_le_count tile) (by decide)
  have hdegrees : Bounded 57
      ((p.x / tileExtent + Float.ofNat tile.x) / tile.count * 360) :=
    hcount.mul (bounded_ofNat (k := 360) (n := 9) (by decide) (by decide))
      (by decide)
  exact (hdegrees.sub ((bounded_ofNat (k := 180) (n := 8) (by decide)
    (by decide)).mono (by decide)) (by decide)).mono (by decide)

end Geometry

namespace Semantics

open MapStyle.Geometry (Position Shape Tile Ruler)

/-- What is reported of a distance: null unless it is a finite number. -/
def reported : Option Float → Value
  | some d => if d.isFinite then .number d else .null
  | none => .null

noncomputable def distance? (ctx : Context) (shapes : List (Shape Float)) : Option Value :=
  match ctx.positions?, ctx.tile, ctx.kind? with
  | some g, some tile, some kind =>
    let feature := featureShapes tile kind g
    match feature.findSome? Shape.start? with
    | none => return .null
    | some start => do
      let ruler := Ruler.ofLatitude start.y
      return reported (← Shape.distanceBetween? ruler feature shapes)
  | _, _, _ => return .null

theorem bounded_featureShapes {tile : Tile} (kind : GeometryKind)
    {g : List (List (Position Float))} (hcolumn : tile.x ≤ 2 ^ 32)
    (hg : ∀ part ∈ g, ∀ p ∈ part, Bounded 60 p.x) :
    ∀ shape ∈ featureShapes tile kind g, shape.Bounded := by
  intro shape hshape q hq
  cases kind with
  | unknown => cases hshape
  | point =>
      obtain rfl := List.mem_singleton.1 hshape
      obtain ⟨p, hp, rfl⟩ := List.mem_map.1 hq
      obtain ⟨part, hpart, hp⟩ := List.mem_flatten.1 hp
      exact Geometry.bounded_unproject hcolumn (hg part hpart p hp)
  | lineString =>
      obtain ⟨line, hline, rfl⟩ := List.mem_map.1 hshape
      obtain ⟨p, hp, rfl⟩ := List.mem_map.1 hq
      exact Geometry.bounded_unproject hcolumn (hg line hline p hp)
  | polygon =>
      obtain ⟨rings, hrings, rfl⟩ := List.mem_map.1 hshape
      obtain ⟨image, himage, hq⟩ := List.mem_flatten.1 hq
      obtain ⟨ring, hring, rfl⟩ := List.mem_map.1 himage
      obtain ⟨p, hp, rfl⟩ := List.mem_map.1 hq
      exact Geometry.bounded_unproject hcolumn
        (hg ring (Geometry.mem_of_mem_classify hrings hring) p hp)

/-- The largest coordinate and the largest longitude for which a distance is
known to be measured. -/
def largestCoordinate : Float := 1152921504606846976

theorem bounded_iff_largestCoordinate {x : Float} :
    Bounded 60 x ↔ ¬ largestCoordinate < x.abs := by
  have h := value_ofNat (n := 1152921504606846976)
    (by exact_mod_cast representable_two_zpow (e := 60) (by decide))
    (lt_trans (by norm_num) Ruler.largestAngle_lt)
  exact bounded_iff h.1 (h.2.trans (by norm_num))

/-- Whether the feature's coordinates are at most the largest one, in a tile
whose column is a number of 32 bits. -/
structure IsModerate (ctx : Context) : Prop where
  column : ∀ tile, ctx.tile = some tile → tile.x < 2 ^ 32
  coordinates : ∀ g, ctx.positions? = some g → ∀ part ∈ g, ∀ p ∈ part,
    ¬ largestCoordinate < p.x.abs

theorem distance?_computes {ctx : Context} {shapes : List (Shape Float)} :
    Computes (IsModerate ctx ∧ ∀ shape ∈ shapes, shape.Bounded)
      (distance? ctx shapes) (distance ctx shapes) := by
  unfold distance? distance
  cases hg : ctx.positions? with
  | none => exact .pure Value.null
  | some g =>
      cases htile : ctx.tile with
      | none => exact .pure Value.null
      | some tile =>
          cases ctx.kind? with
          | none => exact .pure Value.null
          | some kind =>
              show Computes _
                (match (featureShapes tile kind g).findSome? Shape.start? with
                  | none => some Value.null
                  | some start => _)
                (match (featureShapes tile kind g).findSome? Shape.start? with
                  | none => Value.null
                  | some start => _)
              cases (featureShapes tile kind g).findSome? Shape.start? with
              | none => exact .pure Value.null
              | some start =>
                  have hbounded (h : IsModerate ctx) :=
                    bounded_featureShapes kind
                      (h.column tile htile).le fun part hpart p hp =>
                        bounded_iff_largestCoordinate.2
                          (h.coordinates g hg part hpart p hp)
                  exact (Shape.distanceBetween?_computes.mono
                    fun ⟨hctx, hshapes⟩ => ⟨hbounded hctx, hshapes⟩).bind
                      (.pure (reported _))

/-- An angle is wrapped if it is at most the largest one, and a distance is
measured if the coordinates of the feature and the longitudes of the shapes are
at most the largest coordinate. -/
theorem distance_ends (x : Float) (ctx : Context)
    (shapes : List (Shape Float)) :
    ((Ruler.wrap? x).isSome = true ↔ ¬ Ruler.largestAngle < x.abs) ∧
      (IsModerate ctx →
        (∀ shape ∈ shapes, ∀ p ∈ shape.vertices,
          ¬ largestCoordinate < p.x.abs) →
        distance? ctx shapes = some (distance ctx shapes)) := by
  refine ⟨Ruler.isSome_wrap? x, fun hctx hshapes => ?_⟩
  exact distance?_computes.eq_some ⟨hctx, fun shape hshape p hp =>
    bounded_iff_largestCoordinate.2 (hshapes shape hshape p hp)⟩

/-- A point in the middle of the world. -/
def middleContext : Context :=
  { feature := some { kind := .point, geometry := some [[⟨4096, 4096⟩]] }
    tile := some ⟨0, 0, 0⟩ }

theorem isModerate_middleContext : IsModerate middleContext := by
  refine ⟨fun tile htile => ?_, fun g hg part hpart p hp => ?_⟩
  · obtain rfl := Option.some.inj htile
    decide
  · obtain rfl := Option.some.inj hg
    obtain rfl := List.mem_singleton.1 hpart
    obtain rfl := List.mem_singleton.1 hp
    decide

/-- The distance to a point one degree to the east, over an angle of minus one
degree. -/
theorem distance_ends_degree : ¬ Ruler.largestAngle < (-1 : Float).abs ∧
    (Ruler.wrap? (-1 : Float)).isSome = true ∧ IsModerate middleContext ∧
    (∀ shape ∈ [Shape.points [(⟨1, 0⟩ : Position Float)]],
      ∀ p ∈ shape.vertices, ¬ largestCoordinate < p.x.abs) ∧
    distance? middleContext [.points [⟨1, 0⟩]] =
      some (distance middleContext [.points [⟨1, 0⟩]]) := by
  have hshapes : ∀ shape ∈ [Shape.points [(⟨1, 0⟩ : Position Float)]],
      ∀ p ∈ shape.vertices, ¬ largestCoordinate < p.x.abs := by
    intro shape hshape p hp
    obtain rfl := List.mem_singleton.1 hshape
    obtain rfl := List.mem_singleton.1 hp
    decide
  obtain ⟨hwrap, hdistance⟩ :=
    distance_ends (-1) middleContext [.points [⟨1, 0⟩]]
  have hangle : ¬ Ruler.largestAngle < (-1 : Float).abs := by decide
  exact ⟨hangle, hwrap.2 hangle, isModerate_middleContext, hshapes,
    hdistance isModerate_middleContext hshapes⟩

/-- `{"type": "Point", "coordinates": [1e19, 0]}`. -/
def farPoint : Json :=
  .object
    [("coordinates", .array
      [.number (.decimal 1e19), .number (.integer 0)]),
     ("type", .string "Point")]

def farShapes : List (Shape Float) :=
  [.points [⟨1e19, Float.ofInt 0⟩]]

theorem shapesOf_farPoint : Compile.shapesOf farPoint = farShapes := by
  have hread : Geometry.GeoJson.ofJson? farPoint =
      some (.point [1e19, Float.ofInt 0]) := by
    rw [Geometry.GeoJson.ofJson?, farPoint, Geometry.GeoJson.read?]
    rfl
  rw [Compile.shapesOf, hread]
  rfl

theorem compile_farPoint :
    StyleExpression.compile .standard none
      (.array [.string "distance", farPoint]) =
        .ok ⟨.distance .number farShapes, .null, none⟩ := by
  have hoperand {s : Site} {compile} :
      Compile.distance s [⟨farPoint, compile⟩] =
        .ok (.distance .number farShapes) := by
    rw [Compile.distance, shapesOf_farPoint]
    rfl
  have hexpression : Compiler.compile { registry := .standard }
      (.array [.string "distance", farPoint]) { expected := none } none =
        .ok (.distance .number farShapes) := by
    show Compile.distance _ [⟨farPoint, _⟩] >>= _ = _
    rw [hoperand]
    rfl
  rw [StyleExpression.compile_eq]
  show Compiler.compile _ _ { expected := none } none >>= _ = _
  rw [hexpression]
  rfl

/-- A longitude that is finite but too large is accepted, and the distance to it
is never measured. -/
theorem distance_runs_on :
    StyleExpression.compile .standard none
      (.array [.string "distance", farPoint]) =
        .ok ⟨.distance .number farShapes, .null, none⟩ ∧
      IsModerate middleContext ∧ distance? middleContext farShapes = none := by
  refine ⟨compile_farPoint, isModerate_middleContext, ?_⟩
  have hfar : Ruler.largestAngle <
      ((Tile.unproject ⟨0, 0, 0⟩ ⟨4096, 4096⟩).x - 1e19).abs := by
    decide +kernel
  have hnone : Ruler.wrap?
      ((Tile.unproject ⟨0, 0, 0⟩ ⟨4096, 4096⟩).x - 1e19) = none := by
    rw [← Option.not_isSome_iff_eq_none, Ruler.isSome_wrap?]
    exact fun h => h hfar
  simp [distance?, middleContext, farShapes, Context.positions?, Context.kind?,
    featureShapes, Shape.start?, Shape.distanceBetween?, Shape.nearestPair?,
    Shape.distance?, Shape.fromPoints?, Shape.fromPoint?, Ruler.distance?, hnone]

end Semantics

end MapStyle
