import MapStyle.Proofs.Compile.Dependence
import MapStyle.Proofs.Filter.Compilation

/-!
# Filters and the geometry of features

Decoding the geometry of a feature is expensive, so a filter says beforehand
whether it needs it. The answer is a scan of the document for the operators
`within` and `distance`, and it is right about them: without an answer of yes no
such node is in the compiled tree (`usesGeometry_of_compile`). It is wrong about
`geometry-type`, which reads the decoded geometry as well, because a geometry of
several parts has a type of its own. A filter that does not ask for geometry may
tell two geometries of a feature apart by that name, and by nothing else.

The scan runs on what a filter is normalised to. Legacy filters are rewritten by
then, and the rewriting may both lose an operator and make one out of a list of
values. `expressesGeometry` says on the legacy filter what the scan will find.
-/

namespace MapStyle

open MapStyle.Filter

/-! ## The scan finds the operators -/

namespace Registry

theorem mem_specialForms_of_lookup {name name' : String} {f : SpecialForm}
    (h : standard.lookup name = some (.special name' f)) :
    (name, f) ∈ specialForms := by
  have hname := List.find?_some h
  obtain rfl : name' = name := eq_of_beq hname
  rcases List.mem_append.1 (List.mem_of_find?_eq_some h) with hmem | hmem
  · obtain ⟨p, hp, hop⟩ := List.mem_map.1 hmem
    cases hop
    exact hp
  · obtain ⟨op, -, hop⟩ := List.mem_map.1 hmem
    cases hop

/-- The forms that look at geometry go by their names. -/
theorem name_of_lookup_geometry {name name' : String} {f : SpecialForm}
    (h : standard.lookup name = some (.special name' f))
    (hf : f = .within ∨ f = .distance) :
    name = "within" ∨ name = "distance" := by
  have hforms : ∀ p ∈ specialForms, p.2 = .within ∨ p.2 = .distance →
      p.1 = "within" ∨ p.1 = "distance" := by decide
  exact hforms _ (mem_specialForms_of_lookup h) hf

end Registry

namespace Filter

theorem anyUsesGeometry_eq (fs : List Json) :
    anyUsesGeometry fs = fs.any usesGeometry := by
  induction fs with
  | nil => rw [anyUsesGeometry, List.any_nil]
  | cons f fs ih => rw [anyUsesGeometry, List.any_cons, ih]

theorem usesGeometry_apply {op : String} {args : List Json}
    (hop : op ≠ "within" ∧ op ≠ "distance") :
    usesGeometry (apply op args) = args.any usesGeometry := by
  simp [apply, usesGeometry, Json.string?, hop, anyUsesGeometry_eq]

end Filter

namespace Compiler

/-- Narrowing adds no node that looks at geometry. -/
theorem mem_nodes_of_wrapped {w e n : Expr} (hchildren : w.children = [e])
    (hw : w.looksAtGeometry = false) (hn : n ∈ w.nodes)
    (hlooks : n.looksAtGeometry = true) : n ∈ e.nodes := by
  rw [Expr.nodes_eq, hchildren, List.flatMap_singleton] at hn
  rcases List.mem_cons.1 hn with rfl | hn
  · rw [hw] at hlooks
    cases hlooks
  · exact hn

/-- The scan of a document answers for the tree that it compiles to. -/
theorem usesGeometry_hereditary : Hereditary .standard fun raw _ e =>
    ∀ n ∈ e.nodes, n.looksAtGeometry = true → usesGeometry raw = true where
  literal _ _ _ _ n hn hlooks := by
    obtain rfl := List.mem_singleton.1 hn
    cases hlooks
  assertion _ _ _ _ h n hn hlooks :=
    h n (mem_nodes_of_wrapped rfl rfl hn hlooks) hlooks
  coercion _ _ _ _ h n hn hlooks :=
    h n (mem_nodes_of_wrapped rfl rfl hn hlooks) hlooks
  application name raws scope e h hform n hn hlooks := by
    rw [usesGeometry, anyUsesGeometry_eq]
    rcases List.mem_cons.1 (Expr.nodes_eq e ▸ hn) with rfl | hn
    · have hname : name = "within" ∨ name = "distance" := by
        cases n with
        | within ty region =>
            obtain ⟨name', hlookup⟩ := hform .within rfl
            exact Registry.name_of_lookup_geometry hlookup (.inl rfl)
        | distance ty shapes =>
            obtain ⟨name', hlookup⟩ := hform .distance rfl
            exact Registry.name_of_lookup_geometry hlookup (.inr rfl)
        | _ => cases hlooks
      rcases hname with rfl | rfl <;> rfl
    · obtain ⟨c, hc, hn⟩ := List.mem_flatMap.1 hn
      obtain ⟨_, raw, hraw, hc⟩ := h.exists_scope hc
      have hany : raws.any usesGeometry = true :=
        List.any_eq_true.2 ⟨raw, hraw, hc n hn hlooks⟩
      rw [hany, Bool.or_true]

/-- Where a node of the compiled tree looks at geometry, the scan finds an
operator. -/
theorem usesGeometry_of_compile {c : Compiler}
    (hc : c.registry = .standard) {raw : Json} {s : Site}
    {how : Option Narrowing} {e n : Expr} (h : c.compile raw s how = .ok e)
    (hn : n ∈ e.nodes) (hlooks : n.looksAtGeometry = true) :
    usesGeometry raw = true := by
  have hQ := hc ▸ usesGeometry_hereditary
  exact compile_inherits hQ raw s how e h n hn hlooks

end Compiler

/-! ## Features with another geometry -/

namespace Context

/-- The context with another decoded geometry of the feature, or none, and in
another tile. -/
def withGeometry (ctx : Context)
    (geometry : Option (List (List (Geometry.Position Float))))
    (tile : Option Geometry.Tile) : Context :=
  { ctx with feature := ctx.feature.map ({ · with geometry }), tile }

/-- The type of the feature's geometry, that of its parts included. -/
def geometryType? (ctx : Context) : Option String :=
  ctx.feature.map Feature.geometryType

variable (ctx : Context)
  (geometry : Option (List (List (Geometry.Position Float))))
  (tile : Option Geometry.Tile)

theorem property?_withGeometry (key : String) :
    (ctx.withGeometry geometry tile).property? key = ctx.property? key := by
  obtain ⟨_, _, _, _, _ | _, _, _, _⟩ := ctx <;> rfl

theorem id_withGeometry : (ctx.withGeometry geometry tile).id = ctx.id := by
  obtain ⟨_, _, _, _, _ | _, _, _, _⟩ := ctx <;> rfl

theorem kind?_withGeometry :
    (ctx.withGeometry geometry tile).kind? = ctx.kind? := by
  obtain ⟨_, _, _, _, _ | _, _, _, _⟩ := ctx <;> rfl

theorem properties_withGeometry :
    (ctx.withGeometry geometry tile).feature.map Feature.properties =
      ctx.feature.map Feature.properties := by
  obtain ⟨_, _, _, _, _ | _, _, _, _⟩ := ctx <;> rfl

end Context

/-- Only the operator for the type of a geometry looks at what is decoded. -/
theorem Primitive.apply_withGeometry {primitive : Primitive} {ctx : Context}
    {geometry : Option (List (List (Geometry.Position Float)))}
    {tile : Option Geometry.Tile}
    (h : primitive = .geometryType →
      (ctx.withGeometry geometry tile).geometryType? = ctx.geometryType?)
    (os : List Outcome) :
    primitive.apply (ctx.withGeometry geometry tile) os =
      primitive.apply ctx os := by
  by_cases htype : primitive = .geometryType
  · subst htype
    have hname : (ctx.withGeometry geometry tile).feature.map
        Feature.geometryType = ctx.feature.map Feature.geometryType := h rfl
    rw [apply, hname, apply]
  · -- Of the feature the others see the properties, the id and the kind.
    unfold apply
    split
    all_goals first
      | rfl
      | exact absurd rfl htype
      | simp only [testProperty, Context.property?_withGeometry,
          Context.id_withGeometry, Context.kind?_withGeometry,
          Context.properties_withGeometry]

namespace Expr

/-- Whether the node asks for the type of the feature's geometry. -/
def asksGeometryType : Expr → Bool
  | .compound _ _ primitive _ _ => primitive == .geometryType
  | _ => false

variable {e n : Expr} {ctx : Context}
  {geometry : Option (List (List (Geometry.Position Float)))}
  {tile : Option Geometry.Tile}

theorem readsAlike_withGeometry (hlooks : n.looksAtGeometry = false)
    (hname : n.asksGeometryType = true →
      (ctx.withGeometry geometry tile).geometryType? = ctx.geometryType?) :
    n.ReadsAlike (ctx.withGeometry geometry tile) ctx := by
  cases n with
  | within | distance => cases hlooks
  | globalState => rfl
  | compound name ty primitive impure args =>
      exact Primitive.apply_withGeometry fun h => hname (beq_iff_eq.2 h)
  | _ => trivial

/-- The decoded geometry matters to a closed tree without geometry operators
only through the type of the geometry, and only if the tree asks for it. -/
theorem Scoped.evaluate_withGeometry (h : e.Scoped [])
    (hlooks : ∀ n ∈ e.nodes, n.looksAtGeometry = false)
    (hname : (∃ n ∈ e.nodes, n.asksGeometryType = true) →
      (ctx.withGeometry geometry tile).geometryType? = ctx.geometryType?) :
    e.evaluate (ctx.withGeometry geometry tile) = e.evaluate ctx := by
  refine evaluate_congr fun n hn => ?_
  have hn := h.mem_nodes hn
  exact readsAlike_withGeometry (hlooks n hn) fun hasks => hname ⟨n, hn, hasks⟩

end Expr

namespace FeatureFilter

variable {raw : Json} {f : FeatureFilter}

/-- A filter that does not ask for geometry has no node that looks at it. -/
theorem not_looksAtGeometry_of_compile (h : compile .standard raw = .ok f)
    (hgeometry : f.usesGeometry = false) {n : Expr}
    (hn : n ∈ f.expression.expression.nodes) : n.looksAtGeometry = false := by
  obtain ⟨e, he, rfl⟩ := compile_iff.1 h
  refine Bool.eq_false_iff.2 fun hlooks => ?_
  have hscan : (ofTree raw e).usesGeometry = true :=
    Compiler.usesGeometry_of_compile rfl he hn hlooks
  rw [hgeometry] at hscan
  cases hscan

/-- A filter asks for geometry if any part of its tree looks at it, at any depth
and in the copies that variables carry. -/
theorem usesGeometry_of_partOf (h : compile .standard raw = .ok f) {p : Expr}
    (hp : p.PartOf f.expression.expression)
    (hlooks : p.looksAtGeometry = true) : f.usesGeometry = true := by
  obtain ⟨e, he, rfl⟩ := compile_iff.1 h
  -- What a reference carries is among the nodes, where its name is bound.
  have hscoped : e.Scoped [] := Compiler.scoped_of_compile he
  have hnode : p ∈ e.nodes := hscoped.mem_nodes hp
  exact Compiler.usesGeometry_of_compile rfl he hnode hlooks

/-- A polygon that has no rings. -/
def ringless : Json :=
  .object [("type", .string "Polygon"), ("coordinates", .array [])]

/-- `["let", "inside", ["within", ringless], ["!", ["var", "inside"]]]`. -/
def outsideDocument : Json :=
  .array [.string "let", .string "inside",
    .array [.string "within", ringless],
    .array [.string "!", .array [.string "var", .string "inside"]]]

/-- What the document compiles to. -/
def outsideTree : Expr :=
  .binding [("inside", .within .boolean [[]])]
    (.compound "!" .boolean .not false
      [.reference "inside" (.within .boolean [[]])])

theorem regionOf_ringless : Compile.regionOf ringless = [[]] := by
  have hread : Geometry.GeoJson.ofJson? ringless = some (.polygon []) := by
    rw [Geometry.GeoJson.ofJson?, ringless, Geometry.GeoJson.read?]
    rfl
  have hshapes : Geometry.GeoJson.shapes? (.polygon []) =
      some [.polygon []] := by
    rw [Geometry.GeoJson.shapes?]
    rfl
  rw [Compile.regionOf, hread]
  show ((Geometry.GeoJson.shapes? (.polygon [])).getD []).filterMap _ = _
  rw [hshapes]
  rfl

theorem compile_outsideDocument : compile .standard outsideDocument =
    .ok (ofTree outsideDocument outsideTree) := by
  have hoperand {s : Site} {compile} :
      Compile.within s [⟨ringless, compile⟩] = .ok (.within .boolean [[]]) := by
    rw [Compile.within, regionOf_ringless]
    rfl
  have hvalue : compiler.compile (.array [.string "within", ringless])
      ⟨[2], [], none⟩ none = .ok (.within .boolean [[]]) := by
    show Compile.within _ [⟨ringless, _⟩] >>= _ = _
    rw [hoperand]
    rfl
  refine compile_iff.2 ⟨outsideTree, ?_, rfl⟩
  show (((compiler.compile (.array [.string "within", ringless])
    ⟨[2], [], none⟩ none >>= _) >>= _) >>= _) = _
  rw [hvalue]
  rfl

/-- The copy of the operator that the name carries. -/
theorem usesGeometry_of_partOf_bound :
    compile .standard outsideDocument =
        .ok (ofTree outsideDocument outsideTree) ∧
      (Expr.within .boolean [[]]).PartOf outsideTree ∧
      (Expr.within .boolean [[]]).looksAtGeometry = true ∧
      (ofTree outsideDocument outsideTree).usesGeometry = true := by
  have hcopy : (Expr.within .boolean [[]]).PartOf
      (.reference "inside" (.within .boolean [[]])) :=
    .operand (List.mem_singleton_self _) .refl
  have hbody : (Expr.within .boolean [[]]).PartOf
      (.compound "!" .boolean .not false
        [.reference "inside" (.within .boolean [[]])]) :=
    .operand (List.mem_singleton_self _) hcopy
  have hpart : (Expr.within .boolean [[]]).PartOf outsideTree :=
    .operand (List.mem_append_right _ (List.mem_singleton_self _)) hbody
  exact ⟨compile_outsideDocument, hpart, rfl,
    usesGeometry_of_partOf compile_outsideDocument hpart rfl⟩

/-- A filter that does not ask for geometry passes the same features whatever
is decoded of them, unless it asks for the type of a geometry and what is
decoded has another one. -/
theorem passes_withGeometry (h : compile .standard raw = .ok f)
    (hgeometry : f.usesGeometry = false) (ctx : Context)
    (geometry : Option (List (List (Geometry.Position Float))))
    (tile : Option Geometry.Tile)
    (hname : (∃ n ∈ f.expression.expression.nodes,
        n.asksGeometryType = true) →
      (ctx.withGeometry geometry tile).geometryType? = ctx.geometryType?) :
    f.passes (ctx.withGeometry geometry tile) = f.passes ctx := by
  have hlooks : ∀ n ∈ f.expression.expression.nodes,
      n.looksAtGeometry = false := fun n hn =>
    not_looksAtGeometry_of_compile h hgeometry hn
  obtain ⟨e, he, rfl⟩ := compile_iff.1 h
  have hscoped : e.Scoped [] := Compiler.scoped_of_compile he
  have hsame := hscoped.evaluate_withGeometry hlooks hname
  rw [passes, passes, StyleExpression.render, StyleExpression.render,
    evaluate_ofTree, evaluate_ofTree, hsame]

/-! A filter on the type of the geometry, and a feature of several points. -/

/-- `["==", ["geometry-type"], name]`. -/
def typeDocument (name : String) : Json :=
  .array [.string "==", .array [.string "geometry-type"], .string name]

/-- What the document compiles to. -/
def typeFilter (name : String) : FeatureFilter :=
  { expression :=
      { expression := .comparison .boolean .eq false
          (.compound "geometry-type" .string .geometryType false [])
          (.literal .string (.string name))
        fallback := .boolean false
        allowed := none }
    usesGeometry := false
    globalNames := [] }

theorem compile_typeDocument (name : String) :
    compile .standard (typeDocument name) = .ok (typeFilter name) := by
  rfl

/-- A feature of points that is not decoded. -/
def pointContext : Context := { feature := some { kind := .point } }

theorem passes_withGeometry_point :
    compile .standard (typeDocument "Point") = .ok (typeFilter "Point") ∧
      (typeFilter "Point").usesGeometry = false ∧
      (pointContext.withGeometry (some [[⟨1, 1⟩]]) none).geometryType? =
        pointContext.geometryType? ∧
      (typeFilter "Point").passes
          (pointContext.withGeometry (some [[⟨1, 1⟩]]) none) =
        (typeFilter "Point").passes pointContext :=
  ⟨compile_typeDocument "Point", rfl, rfl,
    passes_withGeometry (compile_typeDocument "Point") rfl pointContext
      (some [[⟨1, 1⟩]]) none fun _ => rfl⟩

/-- With two points decoded the feature passes, and without them it does
not. -/
theorem passes_multiPoint :
    ∃ f, compile .standard (typeDocument "MultiPoint") = .ok f ∧
      f.usesGeometry = false ∧
      f.passes (pointContext.withGeometry (some [[⟨1, 1⟩, ⟨2, 2⟩]]) none) ≠
        f.passes pointContext := by
  refine ⟨typeFilter "MultiPoint", compile_typeDocument "MultiPoint", rfl, ?_⟩
  have hpasses : (typeFilter "MultiPoint").passes
      (pointContext.withGeometry (some [[⟨1, 1⟩, ⟨2, 2⟩]]) none) = true := by
    rfl
  have hfails : (typeFilter "MultiPoint").passes pointContext = false := by
    rfl
  rw [hpasses, hfails]
  exact nofun

end FeatureFilter

/-! ## The scan after normalisation -/

namespace Filter

/-- The values of a membership in the order in which they are listed. -/
def listed (field : Json) (values : List Json) : List Json :=
  if !isReserved field && largeMembership < values.length &&
      areOfOneKind values then
    sortValues values
  else values

mutual

/-- Whether the scan finds an operator in what a legacy filter is expressed by:
in a field or a value that is kept as it stands, or in a list of values, which
it takes for an application of the first of them. -/
def expressesGeometry : Json → Bool
  | .array (.string op :: field :: rest) =>
    if comparisonHeads.contains op then
      usesGeometry field || usesGeometry (operand rest)
    else if op == "any" || op == "all" || op == "none" then
      expressesGeometry field || anyExpressesGeometry rest
    else if op == "in" || op == "!in" then
      !rest.isEmpty &&
        (usesGeometry field || usesGeometry (.array (listed field rest)))
    else if op == "has" || op == "!has" then usesGeometry field
    else false
  | _ => false

def anyExpressesGeometry : List Json → Bool
  | [] => false
  | f :: fs => expressesGeometry f || anyExpressesGeometry fs

end

variable {field : Json}

theorem usesGeometry_of_string {name : String}
    (h : field.string? = some name) : usesGeometry field = false := by
  cases field with
  | string => rfl
  | _ => cases h

theorem usesGeometry_negate (f : Json) :
    usesGeometry (negate f) = usesGeometry f := by
  rw [negate, usesGeometry_apply (by decide), List.any_cons, List.any_nil,
    Bool.or_false]

theorem usesGeometry_equality (field value : Json) :
    usesGeometry (equality field value) =
      (usesGeometry field || usesGeometry value) := by
  unfold equality
  split
  · next h =>
      rw [usesGeometry_of_string h, usesGeometry_apply (by decide)]
      simp
  · next h =>
      rw [usesGeometry_of_string h, usesGeometry_apply (by decide)]
      simp
  · rw [usesGeometry_apply (by decide)]
    simp

theorem usesGeometry_presence (field : Json) :
    usesGeometry (presence field) = usesGeometry field := by
  unfold presence
  split
  · next h =>
      rw [usesGeometry_of_string h]
      rfl
  · next h =>
      rw [usesGeometry_of_string h]
      rfl
  · rw [usesGeometry_apply (by decide)]
    simp

theorem listed_reserved (h : isReserved field = true) (values : List Json) :
    listed field values = values := by
  simp [listed, h]

/-- A list of values in the place of an operand. -/
theorem any_usesGeometry_literals (values : List Json) :
    [field, apply "literal" [.array values]].any usesGeometry =
      (usesGeometry field || usesGeometry (.array values)) := by
  rw [List.any_cons, List.any_cons, usesGeometry_apply (by decide)]
  simp

theorem usesGeometry_membership (field : Json) (values : List Json) :
    usesGeometry (membership field values) = (!values.isEmpty &&
      (usesGeometry field || usesGeometry (.array (listed field values)))) := by
  unfold membership
  simp only
  split
  · next hempty =>
      rw [hempty]
      rfl
  · next hempty =>
      rw [Bool.eq_false_iff.2 hempty, Bool.not_false, Bool.true_and]
      have reserved {name op : String} (hname : field.string? = some name)
          (hreserved : isReserved field = true)
          (hop : op ≠ "within" ∧ op ≠ "distance") :
          usesGeometry (apply op [apply "literal" [.array values]]) =
            (usesGeometry field ||
              usesGeometry (.array (listed field values))) := by
        rw [usesGeometry_of_string hname, listed_reserved hreserved,
          usesGeometry_apply hop, List.any_cons, usesGeometry_apply (by decide)]
        simp
      split
      · next h => exact reserved h (by simp [isReserved, h]) (by decide)
      · next h => exact reserved h (by simp [isReserved, h]) (by decide)
      · next htype hid =>
          have hreserved : isReserved field = false := by
            simpa [isReserved] using ⟨hid, htype⟩
          rw [listed, hreserved, Bool.not_false, Bool.true_and]
          split
          · rw [usesGeometry_apply (by decide), any_usesGeometry_literals]
          · rw [usesGeometry_apply (by decide), any_usesGeometry_literals]

theorem any_map_negate (fs : List Json) :
    (fs.map negate).any usesGeometry = fs.any usesGeometry := by
  rw [List.any_map]
  exact congrArg fs.any (funext usesGeometry_negate)

mutual

/-- What the scan finds in the expression of a legacy filter. -/
theorem usesGeometry_express : ∀ f : Json,
    usesGeometry (express f) = expressesGeometry f
  | .null | .boolean _ | .number _ | .string _ | .object _ => rfl
  | .array [] | .array [_] => by
      simp [express, expressesGeometry, usesGeometry]
  | .array (.null :: _ :: _) | .array (.boolean _ :: _ :: _)
  | .array (.number _ :: _ :: _) | .array (.array _ :: _ :: _)
  | .array (.object _ :: _ :: _) => rfl
  | .array (.string op :: field :: rest) => by
      have hfield := usesGeometry_express field
      have hrest := anyUsesGeometry_expressAll rest
      -- The cases are the heads in the order in which conversion tests them.
      rw [express]
      split
      · next h =>
          obtain rfl := eq_of_beq h
          exact usesGeometry_equality field _
      split
      · next h =>
          obtain rfl := eq_of_beq h
          rw [usesGeometry_negate]
          exact usesGeometry_equality field _
      split
      · next h =>
          have hops : ∀ op ∈ comparisonHeads,
              "filter-" ++ op ≠ "within" ∧ "filter-" ++ op ≠ "distance" := by
            decide
          rw [expressesGeometry, if_pos h,
            usesGeometry_apply (hops op (List.contains_iff_mem.1 h))]
          simp
      split
      · next h =>
          have hop : op = "any" ∨ op = "all" := by simpa using h
          rcases hop with rfl | rfl
          · rw [usesGeometry_apply (by decide), List.any_cons, hfield, hrest]
            rfl
          · rw [usesGeometry_apply (by decide), List.any_cons, hfield, hrest]
            rfl
      split
      · next h =>
          obtain rfl := eq_of_beq h
          rw [usesGeometry_apply (by decide), List.any_cons, any_map_negate,
            usesGeometry_negate, hfield, hrest]
          rfl
      split
      · next h =>
          obtain rfl := eq_of_beq h
          exact usesGeometry_membership field rest
      split
      · next h =>
          obtain rfl := eq_of_beq h
          rw [usesGeometry_negate]
          exact usesGeometry_membership field rest
      split
      · next h =>
          obtain rfl := eq_of_beq h
          exact usesGeometry_presence field
      split
      · next h =>
          obtain rfl := eq_of_beq h
          rw [usesGeometry_negate]
          exact usesGeometry_presence field
      · rw [expressesGeometry]
        simp_all [usesGeometry]

theorem anyUsesGeometry_expressAll : ∀ fs : List Json,
    (expressAll fs).any usesGeometry = anyExpressesGeometry fs
  | [] => rfl
  | f :: fs => by
      rw [expressAll, List.any_cons, usesGeometry_express f,
        anyUsesGeometry_expressAll fs, anyExpressesGeometry]

end

/-- The scan gives one answer before and after normalisation if the filter is an
expression, or if it finds an operator in the expression of the legacy filter
exactly where the filter itself has one. -/
theorem usesGeometry_toExpression_iff (f : Json) :
    usesGeometry (toExpression f) = usesGeometry f ↔
      isExpression f = true ∨ expressesGeometry f = usesGeometry f := by
  unfold toExpression
  split
  · next hnull =>
      cases f with
      | null => exact ⟨fun _ => .inr rfl, fun _ => rfl⟩
      | _ => cases hnull
  · split
    · next h => exact ⟨fun _ => .inl h, fun _ => rfl⟩
    · next h =>
        rw [usesGeometry_express]
        exact ⟨.inr, fun hor => hor.resolve_left h⟩

/-- The scan takes a value for an operator once the values are in a list of
their own, and finds nothing left of an operator that the combination around it
has read as a legacy filter. -/
theorem usesGeometry_toExpression_differs :
    (usesGeometry (apply "in" [.string "class", .string "within"]) = false ∧
      usesGeometry (toExpression
        (apply "in" [.string "class", .string "within"])) = true) ∧
    (usesGeometry (apply "none" [apply "within" [.object []]]) = true ∧
      usesGeometry (toExpression
        (apply "none" [apply "within" [.object []]])) = false) :=
  ⟨⟨rfl, rfl⟩, rfl, rfl⟩

end Filter

end MapStyle
