import MapStyle.Proofs.Compile.Dependence
import MapStyle.Proofs.Compile.Labels
import MapStyle.Proofs.Expr.ZoomCurve
import MapStyle.Proofs.Typing.Soundness

/-!
# What kinds of property expressions promise

The kind of a property expression tells a renderer when it has to evaluate it
again. It is read off the curve over zoom and not off what the tree reads: an
expression without such a curve must not read the zoom level at all, or it
would have been refused, so that the two come to the same.

The stops of the curve are the zoom levels that matter. There are some whenever
there is a curve, and they ascend.
-/

namespace MapStyle.PropertyExpression

variable {r : Registry} {spec : PropertySpecification} {raw : Json}
  {p : PropertyExpression}

/-- The curve of an accepted tree is a curve over zoom among its nodes, and a
tree that is accepted without one does not read the zoom level. -/
theorem curve_of_checkCurve {e : Expr} {curve : Option Expr}
    (h : checkCurve spec e = .ok curve) :
    (curve = none → e.ignores [.zoom] = true) ∧
      ∀ node ∈ curve, node ∈ e.nodes ∧ node.isZoomCurve = true := by
  unfold checkCurve at h
  simp only at h
  split at h
  · cases h
  · split at h
    · next hignores =>
        cases h
        exact ⟨fun _ => hignores, fun _ hnode => nomatch hnode⟩
    · cases h
  · next located hsearch =>
      split at h
      · cases h
      · cases h
        refine ⟨nofun, fun node hnode => ?_⟩
        obtain rfl := Option.some.inj hnode
        exact Expr.mem_nodes_of_zoomCurve hsearch

/-- What an accepted expression has been read off: a compiled tree, and its
curve over zoom, without which the tree does not read the zoom level. -/
theorem classified_of_compile (h : compile r spec raw = .ok p) :
    StyleExpression.compile r (some spec) raw = .ok p.expression ∧
      ∃ curve : Option Expr,
        p.kind = kindOf curve.isSome p.expression.expression.ignoresFeature ∧
        p.stateDependent = !p.expression.expression.ignoresState ∧
        p.zoomStops = (curve.map labelsOf).getD [] ∧
        (curve = none → p.expression.expression.ignores [.zoom] = true) ∧
        ∀ node ∈ curve, node ∈ p.expression.expression.nodes ∧
          node.isZoomCurve = true := by
  obtain ⟨e, he, h⟩ := ok_of_bind h
  obtain ⟨_, -, h⟩ := ok_of_bind h
  obtain ⟨curve, hcurve, h⟩ := ok_of_bind h
  obtain rfl := ok_of_pure h
  exact ⟨he, curve, rfl, rfl, rfl, curve_of_checkCurve hcurve⟩

/-! ## What the kinds mean -/

theorem kindOf_iff {hasCurve featureConstant : Bool} :
    ((kindOf hasCurve featureConstant = .constant ∨
        kindOf hasCurve featureConstant = .source) ↔ hasCurve = false) ∧
      ((kindOf hasCurve featureConstant = .constant ∨
        kindOf hasCurve featureConstant = .camera) ↔
          featureConstant = true) := by
  cases hasCurve <;> cases featureConstant <;> decide

/-- Rendering looks at a context through the outcome of the tree alone. -/
theorem render_of_evaluate_eq {ctx ctx' : Context}
    (h : p.expression.expression.evaluate ctx =
      p.expression.expression.evaluate ctx') : p.render ctx = p.render ctx' := by
  rw [render, render, StyleExpression.render, StyleExpression.render,
    StyleExpression.evaluate, StyleExpression.evaluate, h]

/-- A curve in a typed tree has stops. -/
theorem labelsOf_ne_nil {e node : Expr} (he : e.Typed r)
    (hnode : node ∈ e.nodes) (hcurve : node.isZoomCurve = true) :
    labelsOf node ≠ [] := by
  have hobeys := he node (Expr.partOf_of_mem_nodes hnode)
  cases node with
  | step ty input stops => simpa [labelsOf] using hobeys.2.1
  | interpolate ty space kind input stops =>
      simpa [labelsOf] using hobeys.2.1
  | _ => cases hcurve

/-- The nodes of an expression whose document has no NaN ascend. -/
theorem ascends_of_compile {spec : Option PropertySpecification}
    {e : StyleExpression} (h : StyleExpression.compile r spec raw = .ok e)
    (hraw : raw.isProper = true) : ∀ n ∈ e.expression.nodes, n.Ascends := by
  exact Compiler.nodes_of_compile (Compile.ascends_law r) hraw _ _ _
    (StyleExpression.expression_of_compile h)

/-- The kind of an accepted property expression tells what its rendering can
depend on: not the zoom level for the constant and source kinds, and not the
feature, its state and its tile for the constant and camera kinds. An expression
that is not state dependent does not depend on the state. Zoom stops are
published exactly for the other two kinds, and ascend. -/
theorem kind_sound (h : compile .standard spec raw = .ok p) :
    (p.kind = .constant ∨ p.kind = .source →
      ∀ (ctx : Context) (zoom : Float),
        p.render { ctx with zoom } = p.render ctx) ∧
    (p.kind = .constant ∨ p.kind = .camera →
      ∀ (ctx : Context) (feature : Option Feature) (featureState : Fields)
        (tile : Option Geometry.Tile),
        p.render { ctx with feature, featureState, tile } = p.render ctx) ∧
    (p.stateDependent = false → ∀ (ctx : Context) (featureState : Fields),
      p.render { ctx with featureState } = p.render ctx) ∧
    (p.zoomStops = [] ↔ p.kind = .constant ∨ p.kind = .source) ∧
    (raw.isProper = true → p.zoomStops.Pairwise (· < ·)) := by
  obtain ⟨hcompile, curve, hkind, hstate, hstops, hignores, hcurve⟩ :=
    classified_of_compile h
  have hscoped := StyleExpression.scoped_of_compile hcompile
  refine ⟨fun hk ctx zoom => ?_, fun hk ctx feature featureState tile => ?_,
    fun hs ctx featureState => ?_, ?_, fun hraw => ?_⟩
  · rw [hkind, kindOf_iff.1, Option.isSome_eq_false_iff,
      Option.isNone_iff_eq_none] at hk
    refine render_of_evaluate_eq (hscoped.evaluate_of_ignores (by decide)
      (hignores hk) (fun q hq => ?_) rfl rfl)
    cases q with
    | zoom => simp at hq
    | _ => rfl
  · rw [hkind, kindOf_iff.2] at hk
    exact render_of_evaluate_eq
      (hscoped.evaluate_of_ignoresFeature hk feature featureState tile)
  · have hs : p.expression.expression.ignoresState = true := by
      simpa [hstate] using hs
    refine render_of_evaluate_eq (hscoped.evaluate_of_ignores (by decide) hs
      (fun q hq => ?_) rfl rfl)
    cases q with
    | featureState => simp at hq
    | _ => rfl
  · rw [hkind, kindOf_iff.1, hstops]
    cases curve with
    | none => exact ⟨fun _ => rfl, fun _ => rfl⟩
    | some node =>
        obtain ⟨hnode, hzoom⟩ := hcurve node rfl
        have htyped := (StyleExpression.typed_of_compile hcompile).1
        exact ⟨fun hnil => absurd hnil (labelsOf_ne_nil htyped hnode hzoom),
          nofun⟩
  · rw [hstops]
    cases curve with
    | none => exact .nil
    | some node =>
        exact ascends_of_compile hcompile hraw node (hcurve node rfl).1

/-- `["let", "a", 1, ["step", ["zoom"], ["var", "a"], 10, 2]]`. -/
def stepDocument : Json :=
  .array [.string "let", .string "a", .number (.integer 1),
    .array [.string "step", .array [.string "zoom"],
      .array [.string "var", .string "a"], .number (.integer 10),
      .number (.integer 2)]]

/-- A number property whose expressions may read the zoom level. -/
def zoomProperty : PropertySpecification :=
  { type := .number, expression := some { parameters := [.zoom] } }

/-- What the document compiles to. -/
def stepExpression : PropertyExpression :=
  let value : Expr := .literal .number (.number (Float.ofInt 1))
  { kind := .camera
    expression :=
      { expression := .binding [("a", value)]
          (.step .number (.compound "zoom" .number .zoom false [])
            [(-Number.infinity, value),
             (Float.ofInt 10, .literal .number (.number (Float.ofInt 2)))])
        fallback := .null
        allowed := none }
    stateDependent := false
    zoomStops := [-Number.infinity, Float.ofInt 10]
    interpolation := none }

theorem compile_stepDocument :
    compile .standard zoomProperty stepDocument = .ok stepExpression := by
  rfl

theorem kind_sound_step :
    compile .standard zoomProperty stepDocument = .ok stepExpression ∧
      stepDocument.isProper = true ∧
      (∀ (ctx : Context) feature featureState tile,
        stepExpression.render { ctx with feature, featureState, tile } =
          stepExpression.render ctx) ∧
      (∀ (ctx : Context) featureState,
        stepExpression.render { ctx with featureState } =
          stepExpression.render ctx) ∧
      stepExpression.zoomStops ≠ [] ∧
      stepExpression.zoomStops.Pairwise (· < ·) := by
  obtain ⟨-, hfeature, hstate, hstops, hascends⟩ :=
    kind_sound compile_stepDocument
  have hproper : stepDocument.isProper = true := by rfl
  have hkind : ¬ (stepExpression.kind = .constant ∨
      stepExpression.kind = .source) := by decide
  exact ⟨compile_stepDocument, hproper, hfeature (.inr rfl), hstate rfl,
    fun hnil => hkind (hstops.1 hnil), hascends hproper⟩

end MapStyle.PropertyExpression
