import Mathlib.Algebra.GroupWithZero.Nat
import Mathlib.Algebra.Order.BigOperators.Group.List
import Mathlib.Algebra.Order.Group.Nat
import MapStyle.Proofs.Curve.Nodes
import MapStyle.Proofs.Property.Parameters

/-!
# Steps over zoom

A renderer evaluates a step over zoom once between two of its published stops
and keeps the value. This is right if the zoom level is read in one place, the
input of the step: the tree is then the same at two zoom levels up to that step
(`Scoped.evaluate_of_readsZoomOnce`), and the step has one output for both.

The search for the curve does not see to it. It looks for curves over zoom and
not for the zoom level, so that a step whose outputs read the zoom level again
is accepted, and its value changes between the stops.
-/

namespace MapStyle

namespace Expr

variable {e c d curve : Expr}

/-! ## How often the zoom level is read -/

def readsZoom (e : Expr) : Bool :=
  e.readsAny [.zoom]

/-- The number of places in a tree where the zoom level is read. -/
def zoomReads (e : Expr) : Nat :=
  e.nodes.countP readsZoom

theorem zoomReads_eq (e : Expr) :
    e.zoomReads = (e.children.map zoomReads).sum +
      if e.readsZoom then 1 else 0 := by
  rw [zoomReads, nodes_eq, List.countP_cons, List.countP_flatMap]
  rfl

theorem zoomReads_pos_of_mem (hc : c ∈ e.nodes) (h : c.readsZoom = true) :
    0 < e.zoomReads :=
  List.countP_pos_iff.2 ⟨c, hc, h⟩

theorem zoomReads_le_of_child (hc : c ∈ e.children) :
    c.zoomReads ≤ e.zoomReads := by
  have hsum : c.zoomReads ≤ (e.children.map zoomReads).sum :=
    List.le_sum_of_mem (List.mem_map_of_mem hc)
  rw [zoomReads_eq e]
  omega

theorem zoomReads_le (hc : c ∈ e.nodes) : c.zoomReads ≤ e.zoomReads := by
  induction e using Expr.induction with
  | step e ih =>
      rw [nodes_eq] at hc
      rcases List.mem_cons.1 hc with rfl | hc
      · exact Nat.le_refl _
      · obtain ⟨d, hd, hc⟩ := List.mem_flatMap.1 hc
        exact (ih d (mem_operands_of_mem_children hd) hc).trans
          (zoomReads_le_of_child hd)

/-- What two different children read is read by the node. -/
theorem zoomReads_add_le (hc : c ∈ e.children) (hd : d ∈ e.children)
    (hne : d ≠ c) : c.zoomReads + d.zoomReads ≤ e.zoomReads := by
  obtain ⟨before, after, heq⟩ := List.append_of_mem hc
  rw [heq, List.mem_append, List.mem_cons, or_iff_right hne] at hd
  have hother : d.zoomReads ≤ ((before ++ after).map zoomReads).sum :=
    List.le_sum_of_mem
      (List.mem_map_of_mem (List.mem_append.2 hd))
  rw [zoomReads_eq e, heq]
  simp only [List.map_append, List.map_cons, List.sum_append,
    List.sum_cons] at hother ⊢
  omega

/-! ## Reading it once -/

/-- The zoom level as an input. -/
theorem readsZoom_of_isZoomInput (h : e.isZoomInput = true) :
    e.readsZoom = true := by
  obtain ⟨_, _, _, _, rfl, hreads⟩ := isZoomInput_iff.1 h
  exact readsAny_of_mem_reads (hreads ▸ List.mem_cons_self) List.mem_cons_self

theorem evaluate_of_isZoomInput (h : e.isZoomInput = true) (ctx : Context) :
    e.evaluate ctx = .ok (.number ctx.zoom) := by
  obtain ⟨_, _, _, _, rfl, hreads⟩ := isZoomInput_iff.1 h
  obtain rfl := reads_eq_zoom_iff.1 hreads
  rw [evaluate]
  rfl

/-- Whether a tree reads the zoom level nowhere, or once and for the curve. -/
def ReadsZoomFor (e curve : Expr) : Prop :=
  e.zoomReads = 0 ∨ (e.zoomReads = 1 ∧ curve ∈ e.nodes)

section Reads

variable {input : Expr}

/-- A step over zoom reads the zoom level for its input, and where it reads it
once the outputs do not. -/
theorem zoomReads_step (ty : Ty) (stops : List (Float × Expr))
    (hinput : input.isZoomInput = true) :
    0 < (step ty input stops).zoomReads ∧
      ((step ty input stops).zoomReads = 1 →
        ∀ p ∈ stops, p.2.zoomReads = 0) := by
  have hreads : 0 < input.zoomReads :=
    zoomReads_pos_of_mem (mem_nodes_self input)
      (readsZoom_of_isZoomInput hinput)
  have hsum : (step ty input stops).zoomReads =
      input.zoomReads + (stops.map fun p => p.2.zoomReads).sum := by
    rw [zoomReads_eq, children, List.map_cons, List.map_map, List.sum_cons]
    rfl
  refine ⟨by omega, fun hone p hp => ?_⟩
  have houtput : p.2.zoomReads ≤ (stops.map fun p => p.2.zoomReads).sum :=
    List.le_sum_of_mem (List.mem_map_of_mem hp)
  omega

/-- A node other than the curve does not read the zoom level itself, and its
children read it at most for the curve. -/
theorem ReadsZoomFor.children (hcurve : 0 < curve.zoomReads)
    (h : e.ReadsZoomFor curve) (hne : curve ≠ e) :
    e.readsZoom = false ∧ ∀ c ∈ e.children, c.ReadsZoomFor curve := by
  have hself : e.readsZoom = true →
      (e.children.map zoomReads).sum < e.zoomReads := by
    intro hreads
    rw [zoomReads_eq e, if_pos hreads]
    exact Nat.lt_succ_self _
  rw [Bool.eq_false_iff]
  rcases h with hnone | ⟨hone, hmem⟩
  · refine ⟨fun hreads => ?_, fun c hc => .inl ?_⟩
    · have := hself hreads
      omega
    · have := zoomReads_le_of_child hc
      omega
  · rw [nodes_eq] at hmem
    obtain ⟨d, hd, hmem⟩ :=
      List.mem_flatMap.1 (List.mem_of_ne_of_mem hne hmem)
    -- The child with the curve has the one read.
    have hdpos := zoomReads_le hmem
    have hdle : d.zoomReads ≤ (e.children.map zoomReads).sum :=
      List.le_sum_of_mem (List.mem_map_of_mem hd)
    refine ⟨fun hreads => ?_, fun c hc => ?_⟩
    · have := hself hreads
      omega
    · by_cases hcd : c = d
      · subst hcd
        have := zoomReads_le_of_child hc
        exact .inr ⟨by omega, hmem⟩
      · have := zoomReads_add_le hd hc hcd
        exact .inl (by omega)

end Reads

end Expr

/-! ## Between two stops -/

/-- Whether two inputs have the same one of ascending stops below them. -/
def Curve.SameStop (stops : List Float) (x y : Float) : Prop :=
  ∃ (i : Nat) (label : Float), stops[i]? = some label ∧ label ≤ x ∧
    label ≤ y ∧ ∀ next, stops[i + 1]? = some next → x < next ∧ y < next

namespace Expr

variable {scope : Scope} {e input : Expr} {ty : Ty}
  {stops : List (Float × Expr)} {ctx ctx' : Context}

/-- A step has the output of the stop below the zoom level. -/
theorem evaluate_step_eq (hinput : input.isZoomInput = true)
    (hascends : (stops.map Prod.fst).Pairwise (· < ·)) {i : Nat}
    {s : Float × Expr} (hs : stops[i]? = some s) (hle : s.1 ≤ ctx.zoom)
    (hnext : ∀ n, stops[i + 1]? = some n → ctx.zoom < n.1) :
    (step ty input stops).evaluate ctx = s.2.evaluate ctx :=
  evaluate_step_of_reached (evaluate_of_isZoomInput hinput ctx) hascends hs hle
    hnext

/-- A step has one outcome at zoom levels with the same stop below them if each
of its outputs has. -/
theorem evaluate_step_of_sameStop (hinput : input.isZoomInput = true)
    (hascends : (stops.map Prod.fst).Pairwise (· < ·))
    (hsame : Curve.SameStop (stops.map Prod.fst) ctx.zoom ctx'.zoom)
    (houtputs : ∀ p ∈ stops, p.2.evaluate ctx = p.2.evaluate ctx') :
    (step ty input stops).evaluate ctx =
      (step ty input stops).evaluate ctx' := by
  obtain ⟨i, label, hlabel, hle, hle', hnext⟩ := hsame
  rw [List.getElem?_map, Option.map_eq_some_iff] at hlabel
  obtain ⟨s, hs, rfl⟩ := hlabel
  have hnext {n : Float × Expr} (hn : stops[i + 1]? = some n) :
      ctx.zoom < n.1 ∧ ctx'.zoom < n.1 := by
    refine hnext n.1 ?_
    rw [List.getElem?_map, hn]
    rfl
  rw [evaluate_step_eq hinput hascends hs hle fun n hn => (hnext hn).1,
    evaluate_step_eq hinput hascends hs hle' fun n hn => (hnext hn).2]
  exact houtputs s (List.mem_of_getElem? hs)

/-- A node that does not read the zoom level has one outcome at two zoom levels
if each of its children has. -/
theorem evaluate_of_not_readsZoom (hself : e.readsZoom = false)
    (hreference : e.form? ≠ some .reference)
    (hdiffer : ctx.DifferIn ctx' .zoom)
    (hchildren : ∀ c ∈ e.children, c.evaluate ctx = c.evaluate ctx') :
    e.evaluate ctx = e.evaluate ctx' := by
  have halike : Alike (fun a b => a.type = b.type ∧
      a.evaluate ctx = b.evaluate ctx') e e := by
    refine Alike.refl fun c hc => ?_
    rw [operands_eq_children hreference] at hc
    exact ⟨rfl, hchildren c hc⟩
  refine halike.evaluate_eq (fun _ _ => id) ?_
  obtain ⟨hagree, htile, hglobal⟩ := hdiffer
  refine readsAlike_of_agreeOn (fun p hp => hagree p ?_)
    (fun _ => ⟨hagree .feature Parameter.noConfusion, htile⟩)
    fun _ key _ => congrArg (List.lookup key) hglobal
  rintro rfl
  rw [readsZoom, hp] at hself
  cases hself

/-- A tree that reads the zoom level at most for a step over zoom has one
outcome at zoom levels with the same stop below them. What names are bound to
outside of the tree is assumed to have one outcome as well. -/
theorem Scoped.evaluate_of_sameStop (h : e.Scoped scope)
    (hscope : ∀ b ∈ scope, b.2.evaluate ctx = b.2.evaluate ctx')
    (hreads : e.ReadsZoomFor (step ty input stops))
    (hinput : input.isZoomInput = true)
    (hascends : (stops.map Prod.fst).Pairwise (· < ·))
    (hsame : Curve.SameStop (stops.map Prod.fst) ctx.zoom ctx'.zoom)
    (hdiffer : ctx.DifferIn ctx' .zoom) :
    e.evaluate ctx = e.evaluate ctx' := by
  obtain ⟨hpositive, houtputs⟩ := zoomReads_step ty stops hinput
  induction h with
  | binding hnames hbody ihnames ihbody =>
      obtain ⟨-, hchildren⟩ := hreads.children hpositive Expr.noConfusion
      obtain ⟨hnamesReads, hbodyReads⟩ := List.forall_mem_append.1 hchildren
      rw [evaluate, evaluate]
      refine ihbody (fun b hb => ?_) (hbodyReads _ List.mem_cons_self)
      rcases List.mem_append.1 hb with hb | hb
      · have hb := List.mem_reverse.1 hb
        exact ihnames b hb hscope (hnamesReads _ (List.mem_map_of_mem hb))
      · exact hscope b hb
  | reference h =>
      rw [evaluate, evaluate]
      exact hscope _ (mem_of_lookup h)
  | @plain scope e _ hreference hchildren ih =>
      by_cases hcurve : step ty input stops = e
      · subst hcurve
        refine evaluate_step_of_sameStop hinput hascends hsame fun p hp => ?_
        refine ih p.2 (List.mem_cons_of_mem input (List.mem_map_of_mem hp))
          hscope (.inl (houtputs ?_ p hp))
        exact hreads.elim (fun h => by omega) And.left
      · obtain ⟨hself, hreads⟩ := hreads.children hpositive hcurve
        exact evaluate_of_not_readsZoom hself hreference hdiffer
          fun c hc => ih c hc hscope (hreads c hc)

end Expr

namespace PropertyExpression

variable {r : Registry} {spec : PropertySpecification} {raw : Json}
  {p : PropertyExpression}

/-- The curve of an accepted expression that depends on zoom and does not
interpolate is a step over zoom. -/
theorem step_of_compile (h : compile r spec raw = .ok p)
    (hkind : p.kind = .camera ∨ p.kind = .composite)
    (hstep : p.isInterpolated = false) :
    ∃ ty input stops, .step ty input stops ∈ p.expression.expression.nodes ∧
      input.isZoomInput = true ∧ p.zoomStops = stops.map Prod.fst := by
  obtain ⟨e, -, h⟩ := ok_of_bind h
  obtain ⟨_, -, h⟩ := ok_of_bind h
  obtain ⟨curve, hcurve, h⟩ := ok_of_bind h
  obtain rfl := ok_of_pure h
  cases curve with
  | none =>
      exfalso
      cases hfeature : e.expression.ignoresFeature <;>
        simp [kindOf, hfeature] at hkind
  | some node =>
      obtain ⟨hnode, hzoom⟩ := (curve_of_checkCurve hcurve).2 node rfl
      cases node with
      | step ty input stops => exact ⟨ty, input, stops, hnode, hzoom, rfl⟩
      | interpolate => cases hstep
      | _ => cases hzoom

/-- A step over zoom has one value between two of its published stops if the
zoom level is read for its input and nowhere else. -/
theorem render_of_sameStop (h : compile .standard spec raw = .ok p)
    (hraw : raw.isProper = true)
    (hkind : p.kind = .camera ∨ p.kind = .composite)
    (hstep : p.isInterpolated = false)
    (honce : p.expression.expression.zoomReads = 1) {ctx ctx' : Context}
    (hdiffer : ctx.DifferIn ctx' .zoom)
    (hsame : Curve.SameStop p.zoomStops ctx.zoom ctx'.zoom) :
    p.render ctx = p.render ctx' := by
  obtain ⟨hcompile, -⟩ := classified_of_compile h
  obtain ⟨ty, input, stops, hnode, hinput, hstops⟩ :=
    step_of_compile h hkind hstep
  have hascends : (stops.map Prod.fst).Pairwise (· < ·) :=
    ascends_of_compile hcompile hraw _ hnode
  rw [hstops] at hsame
  refine render_of_evaluate_eq ?_
  exact (StyleExpression.scoped_of_compile hcompile).evaluate_of_sameStop
    nofun (.inr ⟨honce, hnode⟩) hinput hascends hsame hdiffer

/-- Levels 3 and 7 are both below the stop of the step at 10. -/
theorem render_of_sameStop_below_ten :
    compile .standard zoomProperty stepDocument = .ok stepExpression ∧
      stepDocument.isProper = true ∧ stepExpression.kind = .camera ∧
      stepExpression.isInterpolated = false ∧
      stepExpression.expression.expression.zoomReads = 1 ∧
      Curve.SameStop stepExpression.zoomStops 3 7 ∧
      ∀ ctx : Context, stepExpression.render { ctx with zoom := 3 } =
        stepExpression.render { ctx with zoom := 7 } := by
  have hproper : stepDocument.isProper = true := by rfl
  have honce : stepExpression.expression.expression.zoomReads = 1 := by rfl
  have hsame : Curve.SameStop stepExpression.zoomStops 3 7 := by
    refine ⟨0, -Number.infinity, rfl, by decide, by decide, fun next h => ?_⟩
    obtain rfl := Option.some.inj h
    decide
  refine ⟨compile_stepDocument, hproper, rfl, rfl, honce, hsame, fun ctx => ?_⟩
  refine render_of_sameStop compile_stepDocument hproper (.inl rfl) rfl honce
    ⟨fun q hq => ?_, rfl, rfl⟩ hsame
  cases q with
  | zoom => exact absurd rfl hq
  | _ => rfl

/-- `["step", ["zoom"], ["zoom"], 10, 2]`. -/
def driftDocument : Json :=
  .array [.string "step", .array [.string "zoom"], .array [.string "zoom"],
    .number (.integer 10), .number (.integer 2)]

/-- The stops of the document, of which the first has the zoom level. -/
def driftStops : List (Float × Expr) :=
  [(-Number.infinity, .compound "zoom" .number .zoom false []),
   (Float.ofInt 10, .literal .number (.number (Float.ofInt 2)))]

/-- What the document compiles to. -/
def driftExpression : PropertyExpression :=
  { kind := .camera
    expression :=
      { expression := .step .number (.compound "zoom" .number .zoom false [])
          driftStops
        fallback := .null
        allowed := none }
    stateDependent := false
    zoomStops := driftStops.map Prod.fst
    interpolation := none }

theorem render_driftExpression {ctx : Context}
    (hle : -Number.infinity ≤ ctx.zoom) (hlt : ctx.zoom < Float.ofInt 10) :
    driftExpression.render ctx = .number ctx.zoom := by
  have hascends : (driftStops.map Prod.fst).Pairwise (· < ·) := by decide
  have hfirst : driftStops[0]? = some driftStops[0] := rfl
  have hnext (n : Float × Expr) (hn : driftStops[0 + 1]? = some n) :
      ctx.zoom < n.1 := by
    obtain rfl := Option.some.inj hn
    exact hlt
  have hzoom : driftExpression.expression.expression.evaluate ctx =
      .ok (.number ctx.zoom) :=
    Expr.evaluate_step_eq rfl hascends hfirst hle hnext
  rw [render, StyleExpression.render, StyleExpression.evaluate, hzoom]
  show (if ctx.zoom.isNaN then Value.null else .number ctx.zoom) = _
  rw [Number.isNaN_of_le hle]
  rfl

/-- A step over zoom whose first output is the zoom level is accepted, and has
two values before its first stop that is a number. -/
theorem render_drifts_between_stops :
    ∃ p, compile .standard zoomProperty driftDocument = .ok p ∧
      driftDocument.isProper = true ∧ p.kind = .camera ∧
      p.isInterpolated = false ∧
      Context.DifferIn { zoom := 1 } { zoom := 2 } .zoom ∧
      Curve.SameStop p.zoomStops 1 2 ∧
      p.render { zoom := 1 } ≠ p.render { zoom := 2 } := by
  refine ⟨driftExpression, by rfl, by rfl, rfl, rfl,
    ⟨fun q hq => ?_, rfl, rfl⟩, ?_, ?_⟩
  · cases q with
    | zoom => exact absurd rfl hq
    | _ => rfl
  · refine ⟨0, -Number.infinity, rfl, by decide, by decide, fun next h => ?_⟩
    obtain rfl := Option.some.inj h
    decide
  · rw [render_driftExpression (by decide) (by decide),
      render_driftExpression (by decide) (by decide)]
    intro heq
    exact absurd (Value.number.inj heq) (by decide)

end PropertyExpression

end MapStyle
