import MapStyle.Proofs.Property.Kind

/-!
# The parameters that a property allows

A property lists the parameters that its expressions may read. An expression is
checked for the feature, the state and the zoom level, and one that passes does
not depend on any of these that the property does not allow. The density of a
heat map, the progress along a line and the accumulated value are not asked
about: whether the property allows them makes no difference to what is accepted
(`compile_forbid`), and so they are read by whoever names their operators.
-/

namespace MapStyle

/-- Whether two contexts differ in nothing but one parameter. -/
def Context.DifferIn (ctx ctx' : Context) (p : Parameter) : Prop :=
  (∀ q, q ≠ p → ctx.AgreeOn ctx' q) ∧ ctx.tile = ctx'.tile ∧
    ctx.globalState = ctx'.globalState

/-- The parameters that an accepted expression has not been asked about. -/
def Parameter.unasked : List Parameter :=
  [.heatmapDensity, .lineProgress, .accumulated]

/-- A closed tree does not tell contexts apart that differ in a parameter that
none of its nodes reads. To read the feature is also to look at its geometry. -/
theorem Expr.Scoped.evaluate_of_differIn {e : Expr} (h : e.Scoped [])
    {p : Parameter} (hp : p ∉ e.dependsOn)
    (hgeometry : p = .feature → ∀ n ∈ e.nodes, n.looksAtGeometry = false)
    {ctx ctx' : Context} (hdiffer : ctx.DifferIn ctx' p) :
    e.evaluate ctx = e.evaluate ctx' := by
  obtain ⟨hagree, htile, hglobal⟩ := hdiffer
  refine h.evaluate_eq (fun q hq => ?_) (fun n hn hlooks => ?_)
    fun key _ => congrArg (List.lookup key) hglobal
  · refine hagree q ?_
    rintro rfl
    exact hp hq
  · refine ⟨hagree .feature ?_, htile⟩
    intro hfeature
    rw [hgeometry hfeature.symm n hn] at hlooks
    cases hlooks

/-- The property with one parameter fewer that it allows. -/
def PropertySpecification.forbid (spec : PropertySpecification)
    (p : Parameter) : PropertySpecification :=
  { spec with expression := spec.expression.map fun e =>
      { e with parameters := e.parameters.filter (· != p) } }

theorem PropertySpecification.allows_forbid (spec : PropertySpecification)
    {p q : Parameter} (hne : q ≠ p) :
    (spec.forbid p).allows q = spec.allows q := by
  rw [allows, allows, forbid]
  cases spec.expression with
  | none => rfl
  | some e => simp [hne]

namespace PropertyExpression

variable {r : Registry} {spec : PropertySpecification} {raw : Json}
  {p : PropertyExpression} {q : Parameter}

/-- What the check of a tree has found: nothing is read of the feature, the
state and the zoom level that the property does not allow. -/
theorem ignores_of_checkInputs {e : Expr}
    (h : checkInputs spec e = .ok ⟨⟩) :
    (spec.allows .feature = false → e.ignoresFeature = true) ∧
      (spec.allows .featureState = false → e.ignoresState = true) ∧
      (spec.allows .zoom = false → e.ignores [.zoom] = true) := by
  simp only [checkInputs] at h
  split at h
  · cases h
  · next hfeature =>
      split at h
      · cases h
      · next hstate =>
          split at h
          · cases h
          · next hzoom =>
              refine ⟨fun hf => ?_, fun hs => ?_, fun hz => ?_⟩
              · simpa [hf] using hfeature
              · simpa [hs] using hstate
              · simpa [hz] using hzoom

/-- The parameters that an accepted expression depends on are allowed, or have
not been asked about. -/
theorem not_mem_dependsOn_of_compile (h : compile r spec raw = .ok p)
    (hq : spec.allows q = false) (hasked : q ∉ Parameter.unasked) :
    q ∉ p.expression.expression.dependsOn ∧ (q = .feature →
      ∀ n ∈ p.expression.expression.nodes, n.looksAtGeometry = false) := by
  obtain ⟨e, -, h⟩ := ok_of_bind h
  obtain ⟨_, hinputs, h⟩ := ok_of_bind h
  obtain ⟨curve, -, h⟩ := ok_of_bind h
  obtain rfl := ok_of_pure h
  obtain ⟨hfeature, hstate, hzoom⟩ := ignores_of_checkInputs hinputs
  cases q with
  | feature =>
      obtain ⟨hignores, hgeometry⟩ := Expr.ignoresFeature_iff.1 (hfeature hq)
      refine ⟨fun hmem => ?_, fun _ => hgeometry⟩
      exact Expr.not_mem_of_ignores hignores hmem List.mem_cons_self
  | featureState =>
      refine ⟨fun hmem => ?_, nofun⟩
      exact Expr.not_mem_of_ignores (hstate hq) hmem List.mem_cons_self
  | zoom =>
      refine ⟨fun hmem => ?_, nofun⟩
      exact Expr.not_mem_of_ignores (hzoom hq) hmem List.mem_cons_self
  | heatmapDensity | lineProgress | accumulated =>
      exact absurd (by decide) hasked

/-- Whether the property allows a parameter that is not asked about makes no
difference to what is accepted. -/
theorem compile_forbid (hq : q ∈ Parameter.unasked) :
    compile r (spec.forbid q) raw = compile r spec raw := by
  have hallows {q' : Parameter} (hq' : q' ∉ Parameter.unasked) :
      (spec.forbid q).allows q' = spec.allows q' := by
    refine spec.allows_forbid ?_
    rintro rfl
    exact hq' hq
  have hinterpolated : (spec.forbid q).interpolated = spec.interpolated := by
    rw [PropertySpecification.interpolated, PropertySpecification.forbid,
      Option.any_map]
    rfl
  have hallowed : ((some (spec.forbid q)).filter (·.type == .enum)).bind
      PropertySpecification.values =
        ((some spec).filter (·.type == .enum)).bind
          PropertySpecification.values := by
    cases henum : spec.type == .enum <;>
      simp [Option.filter, PropertySpecification.forbid, henum]
  have hexpression : StyleExpression.compile r (some (spec.forbid q)) raw =
      StyleExpression.compile r (some spec) raw := by
    rw [StyleExpression.compile_eq, StyleExpression.compile_eq, hallowed]
    rfl
  have hinputs (e : Expr) :
      checkInputs (spec.forbid q) e = checkInputs spec e := by
    rw [checkInputs, checkInputs, hallows (by decide), hallows (by decide),
      hallows (by decide)]
  have hcurve (e : Expr) : checkCurve (spec.forbid q) e = checkCurve spec e := by
    rw [checkCurve, checkCurve, hinterpolated]
  rw [compile, compile, hexpression]
  simp only [hinputs, hcurve]

/-- An accepted property expression gives the same in two contexts that differ
in a parameter that the property does not allow, provided that it does not read
the parameter in case it has not been asked about it. -/
theorem render_of_not_allows (h : compile .standard spec raw = .ok p)
    (hq : spec.allows q = false) (hasked : q ∈ Parameter.unasked →
      q ∉ p.expression.expression.dependsOn) {ctx ctx' : Context}
    (hdiffer : ctx.DifferIn ctx' q) : p.render ctx = p.render ctx' := by
  obtain ⟨hcompile, -⟩ := classified_of_compile h
  have hscoped := StyleExpression.scoped_of_compile hcompile
  refine render_of_evaluate_eq ?_
  by_cases hunasked : q ∈ Parameter.unasked
  · refine hscoped.evaluate_of_differIn (hasked hunasked) ?_ hdiffer
    rintro rfl
    exact absurd hunasked (by decide)
  · obtain ⟨hdepends, hgeometry⟩ :=
      not_mem_dependsOn_of_compile h hq hunasked
    exact hscoped.evaluate_of_differIn hdepends hgeometry hdiffer

/-- A number property whose expressions may read nothing. -/
def plainProperty : PropertySpecification := { type := .number }

/-- `["heatmap-density"]`. -/
def densityDocument : Json := .array [.string "heatmap-density"]

/-- What the document compiles to. -/
def densityExpression : PropertyExpression :=
  { kind := .constant
    expression :=
      { expression := .compound "heatmap-density" .number .heatmapDensity
          false []
        fallback := .null
        allowed := none }
    stateDependent := false
    zoomStops := []
    interpolation := none }

theorem compile_densityDocument :
    compile .standard plainProperty densityDocument =
      .ok densityExpression := by
  rfl

/-- Neither the feature nor the accumulated value, which is not asked about but
not read, makes a difference. -/
theorem render_of_not_allows_density :
    compile .standard plainProperty densityDocument = .ok densityExpression ∧
      plainProperty.allows .feature = false ∧
      plainProperty.allows .accumulated = false ∧
      .accumulated ∉ densityExpression.expression.expression.dependsOn ∧
      (∀ (ctx : Context) feature, densityExpression.render
        { ctx with feature } = densityExpression.render ctx) ∧
      (∀ (ctx : Context) accumulated, densityExpression.render
        { ctx with accumulated } = densityExpression.render ctx) := by
  have hunread :
      .accumulated ∉ densityExpression.expression.expression.dependsOn := by
    decide
  refine ⟨compile_densityDocument, rfl, rfl, hunread, fun ctx feature => ?_,
    fun ctx accumulated => ?_⟩
  · refine render_of_not_allows (q := .feature) compile_densityDocument rfl
      (fun hunasked => absurd hunasked (by decide)) ⟨fun q hq => ?_, rfl, rfl⟩
    cases q with
    | feature => exact absurd rfl hq
    | _ => rfl
  · refine render_of_not_allows (q := .accumulated) compile_densityDocument rfl
      (fun _ => hunread) ⟨fun q hq => ?_, rfl, rfl⟩
    cases q with
    | accumulated => exact absurd rfl hq
    | _ => rfl

/-- A property that allows nothing accepts an expression whose value is the
density of the heat map. -/
theorem render_tells_densities_apart :
    ∃ p, compile .standard plainProperty densityDocument = .ok p ∧
      plainProperty.allows .heatmapDensity = false ∧
      Context.DifferIn { heatmapDensity := some 0 }
        { heatmapDensity := some 1 } .heatmapDensity ∧
      p.render { heatmapDensity := some 0 } ≠
        p.render { heatmapDensity := some 1 } := by
  refine ⟨densityExpression, compile_densityDocument, rfl,
    ⟨fun q hq => ?_, rfl, rfl⟩, ?_⟩
  · cases q with
    | heatmapDensity => exact absurd rfl hq
    | _ => rfl
  · have hzero : densityExpression.render { heatmapDensity := some 0 } =
        .number 0 := by
      rfl
    have hone : densityExpression.render { heatmapDensity := some 1 } =
        .number 1 := by
      rfl
    rw [hzero, hone]
    intro heq
    exact absurd (Value.number.inj heq) (by decide)

end PropertyExpression

end MapStyle
