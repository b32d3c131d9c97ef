import MapStyle.Proofs.Property.Kind
import MapStyle.Proofs.Property.OneCurve

/-!
# Documents that lead to a curve over zoom

A step or an interpolation over `["zoom"]` may be the document, or be reached
from it through bodies of `let` and operands of `coalesce`. Compiling keeps the
way: what a document on it compiles to has the curve at a top-level place, with
one exception. Where an operand of a coalesce is wider than the type that is
expected, the whole is narrowed, and the assertion or conversion around it cuts
the curve off from the root.

The search for the curve stops there. `zoom_route` says that a property takes a
document of this form exactly when no such narrowing stands on the way, and that
it refuses any other as if the curve were not top-level.
-/

namespace MapStyle

/-! ## The way to a curve -/

/-- Documents from which bodies of `let` and operands of `coalesce` lead to a
curve over zoom, with the stops of the curve. -/
inductive Json.LeadsToCurve : Json → List Float → Prop where
  | step (first : Json) (rest : List Json) :
      LeadsToCurve
        (.array (.string "step" :: .array [.string "zoom"] :: first :: rest))
        (-Number.infinity :: stopLabels rest)
  | interpolate {name : String} (kind : Json) (rest : List Json)
      (hname : name ∈ ["interpolate", "interpolate-hcl", "interpolate-lab"]) :
      LeadsToCurve
        (.array (.string name :: kind :: .array [.string "zoom"] :: rest))
        (stopLabels rest)
  | body (names : List Json) {body : Json} {levels : List Float}
      (h : LeadsToCurve body levels) :
      LeadsToCurve (.array (.string "let" :: (names ++ [body]))) levels
  | operand (before after : List Json) {raw : Json} {levels : List Float}
      (h : LeadsToCurve raw levels) :
      LeadsToCurve (.array (.string "coalesce" :: (before ++ raw :: after)))
        levels

namespace Expr

/-- Whether the node narrows a coalesce with an operand that is wider than the
type. -/
def NarrowsCoalesce (e : Expr) : Prop :=
  ∃ ty args, (e = .assertion ty [.coalesce .value args] ∨
      e = .coercion ty [.coalesce .value args]) ∧
    ∃ a ∈ args, ty.accepts a.type = false

theorem NarrowsCoalesce.narrows {e : Expr} (h : e.NarrowsCoalesce) :
    e.narrows = true := by
  obtain ⟨ty, args, rfl | rfl, -⟩ := h <;> rfl

/-- A curve with the stops that is top-level, or cut off by the narrowing of a
coalesce. -/
def Routed (e : Expr) (levels : List Float) : Prop :=
  ∃ l : Located, e.HasCurve l ∧ PropertyExpression.labelsOf l.node = levels ∧
    (e.IsTopLevel l ∨ ∃ n ∈ e.nodes, n.NarrowsCoalesce ∧ 0 < n.zoomReads)

variable {e c : Expr} {l : Located} {levels : List Float} {i : Nat}

theorem Routed.of_child (hc : e.children[i]? = some c)
    (hpass : e.passesOn i = true) (h : c.Routed levels) : e.Routed levels := by
  obtain ⟨l, hl, hlevels, hroute⟩ := h
  refine ⟨l.under i, hl.under hc, hlevels, ?_⟩
  refine hroute.imp (fun htop => (isTopLevel_under_iff hc).2 ⟨hpass, htop⟩) ?_
  rintro ⟨n, hn, hnarrows⟩
  exact ⟨n, mem_nodes_of_child (List.mem_of_getElem? hc) hn, hnarrows⟩

/-- A tree with a curve over zoom is no constant. -/
theorem HasCurve.isConstant (h : e.HasCurve l) : e.isConstant = false := by
  rw [Bool.eq_false_iff]
  intro hconstant
  obtain ⟨input, hinput, hzoom⟩ := exists_input h.2
  have hnode := isConstant_of_partOf hconstant (partOf_of_mem_nodes h.mem_nodes)
  have hmem := mem_operands_of_mem_children (List.mem_of_getElem? hinput)
  have hpart := (operands_of_isConstant hnode).1 input hmem
  cases input with
  | compound name ty primitive impure args =>
      rcases (operands_of_isConstant hpart).2 with ⟨_, _, heq⟩ | ⟨-, hreads⟩
      · cases heq
      · cases args with
        | nil =>
            have hnone := reads_of_readsNothing hreads
            have hreads : primitive.reads = [.zoom] := eq_of_beq hzoom
            rw [hnone] at hreads
            cases hreads
        | cons => cases hzoom
  | _ => cases hzoom

end Expr

namespace Compile

variable {s : Site} {e a : Expr} {how : Option Narrowing}

theorem needsNarrowing_self (ty : Ty) : needsNarrowing ty ty = false := by
  cases ty <;> rfl

theorem needsNarrowing_value (ty : Ty) : needsNarrowing .value ty = false := rfl

theorem needsNarrowing_color (expected : Ty) :
    needsNarrowing expected .color = false := by
  cases expected <;> rfl

/-- What has been narrowed to a type is not narrowed to it again. -/
theorem needsNarrowing_of_conform (h : conform s none e = .ok a) :
    ∀ ty ∈ s.expected, needsNarrowing ty a.type = false := by
  intro ty hty
  have narrowed {how : Narrowing} (hhow : how ≠ .omit) :
      needsNarrowing ty (narrow how ty e).type = false := by
    rw [(type_narrow how ty e).resolve_right hhow]
    exact needsNarrowing_self ty
  cases conformed h with
  | free hexpected => cases hexpected.symm.trans hty
  | accepted hexpected hstays =>
      obtain rfl := Option.some.inj (hexpected.symm.trans hty)
      exact hstays
  | asserted hexpected =>
      obtain rfl := Option.some.inj (hexpected.symm.trans hty)
      exact narrowed nofun
  | colored hexpected =>
      obtain rfl := Option.some.inj (hexpected.symm.trans hty)
      exact narrowed nofun

variable {levels : List Float} {folding : Bool}

/-- A curve is not folded away. -/
theorem settle_of_hasCurve {l : Located} (h : e.HasCurve l) (folding : Bool)
    (s : Site) : settle folding s e = .ok e := by
  rw [settle, h.isConstant, Bool.and_false]
  rfl

/-- What is not narrowed is finished as it is. -/
theorem finish_routed (h : e.Routed levels)
    (hstays : ∀ ty ∈ s.expected, needsNarrowing ty e.type = false) :
    Ensures (fun a => a.Routed levels) (finish folding s how e) := by
  intro a hfinish
  obtain ⟨b, hb, ha⟩ := ok_of_bind hfinish
  rcases conform_narrows hb with rfl | ⟨ty, hexpected, hnarrows, -⟩
  · obtain ⟨l, hl, -⟩ := id h
    obtain rfl := Except.ok.inj ((settle_of_hasCurve hl folding s).symm.trans ha)
    exact h
  · rw [hstays ty hexpected] at hnarrows
    cases hnarrows

/-! ## Curves -/

/-- The type that outputs are given is that which is expected, if it says
anything. -/
theorem needsNarrowing_of_declared {ty : Option Ty}
    (hty : ∀ t ∈ s.declared, ty = some t) (u : Ty) :
    ∀ t ∈ s.expected, needsNarrowing t (ty.getD u) = false := by
  intro t ht
  by_cases hvalue : t = .value
  · rw [hvalue]
    exact needsNarrowing_value _
  · have hdeclared : s.declared = some t := by
      rw [Site.declared, Option.filter_eq_some_iff]
      exact ⟨ht, by simpa using hvalue⟩
    rw [hty t hdeclared]
    exact needsNarrowing_self t

/-- The zoom level as it is compiled for the input of a curve. -/
def zoomNode : Expr := .compound "zoom" .number .zoom false []

theorem compile_zoom (s : Site) (i : Nat) :
    Compiler.compile { registry := .standard } (.array [.string "zoom"])
      (s.child i (some .number) []) none = .ok zoomNode := by
  rfl

/-- A tree on the way to a curve that is not narrowed where it stands. -/
def Stays (s : Site) (levels : List Float) (e : Expr) : Prop :=
  e.Routed levels ∧ ∀ ty ∈ s.expected, needsNarrowing ty e.type = false

theorem step_stays (first : Json) (rest : List Json) :
    Ensures (Stays s (-Number.infinity :: stopLabels rest))
      (step s (Compiler.operands { registry := .standard }
        (.array [.string "zoom"] :: first :: rest))) := by
  intro e h
  obtain ⟨_, -, h⟩ := ok_of_bind h
  obtain ⟨input, hinput, h⟩ := ok_of_bind h
  obtain rfl := Except.ok.inj ((compile_zoom s 1).symm.trans hinput)
  obtain ⟨output, -, h⟩ := ok_of_bind h
  obtain ⟨more, hmore, h⟩ := ok_of_bind h
  obtain rfl := ok_of_pure h
  have hlabels := (stops_labels "step" _ _ _ _ more hmore).1
  rw [Compiler.raws_operands] at hlabels
  refine ⟨⟨⟨[], _⟩, ⟨rfl, rfl⟩, ?_, .inl (.root _)⟩, ?_⟩
  · exact congrArg (-Number.infinity :: ·) hlabels
  · exact needsNarrowing_of_declared (fun _ => id) output.type

theorem interpolate_stays (name : String) (kind : Json) (rest : List Json) :
    Ensures (Stays s (stopLabels rest))
      (interpolate name s (Compiler.operands { registry := .standard }
        (kind :: .array [.string "zoom"] :: rest))) := by
  intro e h
  obtain ⟨shape, -, h⟩ := ok_of_bind h
  obtain ⟨_, -, h⟩ := ok_of_bind h
  obtain ⟨input, hinput, h⟩ := ok_of_bind h
  obtain rfl := Except.ok.inj ((compile_zoom s 2).symm.trans hinput)
  obtain ⟨⟨outputs, ty⟩, houtputs, h⟩ := ok_of_bind h
  obtain ⟨hlabels, hset⟩ := stops_labels name _ _ _ _ _ houtputs
  rw [Compiler.raws_operands] at hlabels
  simp only at h
  split at h
  · obtain rfl := ok_of_pure h
    refine ⟨⟨⟨[], _⟩, ⟨rfl, rfl⟩, hlabels, .inl (.root _)⟩, ?_⟩
    split at hset
    · exact needsNarrowing_of_declared hset .value
    · intro t _
      have hcolor : ty = some .color := hset .color rfl
      show needsNarrowing t (ty.getD .value) = false
      rw [hcolor]
      exact needsNarrowing_color t
  · cases h

/-! ## Bodies and operands -/

/-- A document that compiles with nothing asked about narrowing needs none. -/
theorem needsNarrowing_of_compile {c : Compiler} {raw : Json}
    (h : c.compile raw s none = .ok e) :
    ∀ ty ∈ s.expected, needsNarrowing ty e.type = false := by
  have finished {b : Expr} (h : finish c.folding s none b = .ok e) :
      ∀ ty ∈ s.expected, needsNarrowing ty e.type = false := by
    obtain ⟨a, ha, h⟩ := ok_of_bind h
    rw [type_of_settle h]
    exact needsNarrowing_of_conform ha
  cases raw with
  | array items =>
      rw [Compiler.compile] at h
      obtain ⟨b, -, h⟩ := ok_of_bind h
      exact finished h
  | object fields =>
      rw [Compiler.compile] at h
      cases h
  | _ =>
      rw [Compiler.compile] at h
      exact finished h

/-- The body of a binding is its last operand. -/
theorem boundNames_body : ∀ (os : List Operand) (i : Nat),
    Ensures (fun p => os.getLast? = some p.2.2) (boundNames s i os)
  | [], _ => .fail
  | [body], _ => .pure rfl
  | [name, value], i => by
      refine .skip fun _ => .skip fun _ => ?_
      exact .pure rfl
  | name :: value :: next :: rest, i => by
      refine .skip fun _ => .skip fun _ => ?_
      refine .bind (boundNames_body (next :: rest) (i + 2)) ?_
      intro p hp
      refine .pure ?_
      rw [List.getLast?_cons_cons, List.getLast?_cons_cons]
      exact hp

variable {levels : List Float}

theorem binding_stays {names : List Json} {body : Json}
    (ih : ∀ (s : Site) (how : Option Narrowing), Ensures (·.Routed levels)
      (Compiler.compile { registry := .standard } body s how)) :
    Ensures (Stays s levels)
      (binding s (Compiler.operands { registry := .standard }
        (names ++ [body]))) := by
  unfold binding
  split
  · exact .fail
  · refine .bind (boundNames_body _ 1) ?_
    rintro ⟨bound, i, o⟩ hlast e h
    rw [Compiler.operands_eq_map, List.map_append, List.map_singleton,
      List.getLast?_concat] at hlast
    obtain rfl := Option.some.inj hlast
    obtain ⟨inner, h', h⟩ := ok_of_bind h
    obtain rfl := ok_of_pure h
    have hinner : Compiler.compile { registry := .standard } body
      (s.child i s.expected bound) none = .ok inner := h'
    have hnarrow := needsNarrowing_of_compile hinner
    have hc := Expr.getElem?_body bound inner
    exact ⟨.of_child hc (beq_self_eq_true _) (ih _ _ inner hinner), hnarrow⟩

/-- The operands of a coalesce compile in their places, and keep the type that
is given to them. -/
theorem alternatives_getElem? {os : List Operand} {i : Nat} {ty : Option Ty} :
    Ensures (fun p => (∀ (j : Nat) (o : Operand), os[j]? = some o →
        ∃ (e : Expr) (s' : Site), p.1[j]? = some e ∧
          o.compile s' (some .omit) = .ok e) ∧ ∀ t ∈ ty, p.2 = some t)
      (alternatives s i ty os) := by
  induction os generalizing i ty with
  | nil => exact .pure ⟨nofun, fun _ ht => ht⟩
  | cons o os ih =>
      intro p hp
      obtain ⟨e, he, hp⟩ := ok_of_bind hp
      obtain ⟨p', hp', hp⟩ := ok_of_bind hp
      obtain rfl := ok_of_pure hp
      obtain ⟨hes, hset⟩ := ih p' hp'
      refine ⟨fun j o' hj => ?_, fun t ht => ?_⟩
      · cases j with
        | zero =>
            obtain rfl := Option.some.inj hj
            exact ⟨e, _, rfl, he⟩
        | succ j => exact hes j o' hj
      · obtain rfl : ty = some t := ht
        exact hset t rfl

/-- A coalesce that is narrowed is so for an operand that is wider than the
type, which is then what it has been given the type of everything for. -/
theorem coalesce_narrowed {args : List Operand}
    (h : coalesce s args = .ok e) : ∃ ty es, e = .coalesce ty es ∧
      ∀ t, s.expected = some t → needsNarrowing t ty = true →
        ty = .value ∧ ∃ a ∈ es, t.accepts a.type = false := by
  unfold coalesce at h
  split at h
  · cases h
  · obtain ⟨⟨es, ty⟩, hes, h⟩ := ok_of_bind h
    obtain rfl := ok_of_pure h
    refine ⟨_, es, rfl, fun t hexpected hnarrows => ?_⟩
    have hset := (alternatives_getElem? _ hes).2
    split at hnarrows
    · next hwider =>
        rw [if_pos hwider]
        rw [hexpected] at hwider
        obtain ⟨a, ha, hwide⟩ := List.any_eq_true.1 hwider
        exact ⟨rfl, a, ha, by simpa using hwide⟩
    · rw [needsNarrowing_of_declared hset .value t hexpected] at hnarrows
      cases hnarrows

theorem coalesce_child {args : List Operand} {j : Nat} {o : Operand}
    (h : coalesce s args = .ok e) (hj : args[j]? = some o) :
    e.passesOn j = true ∧ ∃ (c : Expr) (s' : Site), e.children[j]? = some c ∧
      o.compile s' (some .omit) = .ok c := by
  unfold coalesce at h
  split at h
  · cases h
  · obtain ⟨⟨es, ty⟩, hes, h⟩ := ok_of_bind h
    obtain rfl := ok_of_pure h
    exact ⟨rfl, (alternatives_getElem? _ hes).1 j o hj⟩

theorem coalesce_routed {before after : List Json} {raw : Json}
    (ih : ∀ (s : Site) (how : Option Narrowing), Ensures (·.Routed levels)
      (Compiler.compile { registry := .standard } raw s how)) :
    Ensures (·.Routed levels)
      (coalesce s (Compiler.operands { registry := .standard }
        (before ++ raw :: after)) >>= finish folding s how) := by
  intro a h
  obtain ⟨node, hnode, hfinish⟩ := ok_of_bind h
  obtain ⟨b, hb, ha⟩ := ok_of_bind hfinish
  have hoperand : (Compiler.operands { registry := .standard }
      (before ++ raw :: after))[before.length]? =
      some ⟨raw, Compiler.compile { registry := .standard } raw⟩ := by
    rw [Compiler.operands_eq_map, List.getElem?_map,
      List.getElem?_append_right (Nat.le_refl _)]
    simp
  obtain ⟨hpass, c, s', hc, hcompile⟩ := coalesce_child hnode hoperand
  have hrouted : node.Routed levels := .of_child hc hpass (ih _ _ c hcompile)
  obtain ⟨l, hl, hlevels, -⟩ := id hrouted
  rcases conform_narrows hb with rfl | ⟨t, hexpected, hnarrows, hnarrowed⟩
  · obtain rfl := Except.ok.inj ((settle_of_hasCurve hl folding s).symm.trans ha)
    exact hrouted
  · obtain ⟨ty, es, rfl, hcause⟩ := coalesce_narrowed hnode
    obtain ⟨rfl, hwide⟩ := hcause t hexpected hnarrows
    have hchild : b.children[0]? = some (.coalesce .value es) := by
      rcases hnarrowed with rfl | rfl <;> rfl
    have hcurve := hl.under hchild
    obtain rfl := Except.ok.inj
      ((settle_of_hasCurve hcurve folding s).symm.trans ha)
    exact ⟨_, hcurve, hlevels, .inr ⟨b, Expr.mem_nodes_self b,
      ⟨t, es, hnarrowed, hwide⟩, hcurve.zoomReads_pos⟩⟩

end Compile

/-- What a document that leads to a curve compiles to. -/
theorem Compiler.routed_of_compile {raw : Json} {levels : List Float}
    (h : raw.LeadsToCurve levels) (s : Site) (how : Option Narrowing) :
    Ensures (·.Routed levels)
      (compile { registry := .standard } raw s how) := by
  have finished {s : Site} {how : Option Narrowing} {x : Compiled Expr}
      {levels : List Float} (hx : Ensures (Compile.Stays s levels) x) :
      Ensures (·.Routed levels) (x >>= Compile.finish true s how) :=
    .bind hx fun _ he => Compile.finish_routed he.1 he.2
  induction h generalizing s how with
  | step first rest =>
      rw [compile_form (f := .step) _ rfl]
      exact finished (Compile.step_stays first rest)
  | @interpolate name kind rest hname =>
      have hlookup : Registry.standard.lookup name =
          some (.special name .interpolate) := by
        simp only [List.mem_cons, List.not_mem_nil, or_false] at hname
        rcases hname with rfl | rfl | rfl <;> rfl
      rw [compile_form (f := .interpolate) _ hlookup]
      exact finished (Compile.interpolate_stays name kind rest)
  | body names _ ih =>
      rw [compile_form (f := .binding) _ rfl]
      exact finished (Compile.binding_stays ih)
  | operand before after _ ih =>
      rw [compile_form (f := .coalesce) _ rfl]
      exact Compile.coalesce_routed ih

namespace PropertyExpression

variable {spec : PropertySpecification} {raw : Json} {e : StyleExpression}
  {levels : List Float}

/-- A property that may read everything does not refuse an expression for its
inputs. -/
theorem checkInputs_of_allows (hzoom : spec.allows .zoom = true)
    (hfeature : spec.allows .feature = true)
    (hstate : spec.allows .featureState = true) (tree : Expr) :
    checkInputs spec tree = .ok () := by
  simp only [checkInputs, hzoom, hfeature, hstate, Bool.not_true,
    Bool.and_false, Bool.false_eq_true, if_false]
  rfl

/-- A curve is found if it is top-level, and refused if it is not. -/
theorem zoomCurve_of_unique {tree : Expr} {l : Located}
    (hl : tree.HasCurve l) (hunique : ∀ l', tree.HasCurve l' → l' = l) :
    (tree.IsTopLevel l → tree.zoomCurve = .ok (some l)) ∧
      (¬ tree.IsTopLevel l → tree.zoomCurve = .error .notTopLevel) := by
  have haccounts := Expr.zoomCurve_accounts tree
  refine ⟨fun htop => haccounts.eq_ok ⟨hl, hunique, htop⟩, fun htop => ?_⟩
  match hs : tree.zoomCurve with
  | .error .notTopLevel => rfl
  | .error .several =>
      rw [hs] at haccounts
      obtain ⟨l₁, l₂, h₁, h₂, hne⟩ := haccounts
      exact absurd ((hunique l₁ h₁).trans (hunique l₂ h₂).symm) hne
  | .ok none =>
      rw [hs] at haccounts
      exact absurd hl (haccounts l)
  | .ok (some l') =>
      rw [hs] at haccounts
      obtain ⟨hl', -, htop'⟩ := haccounts
      exact absurd (hunique l' hl' ▸ htop') htop

/-- A document from which bodies of `let` and operands of `coalesce` lead to a
curve over zoom, and which reads the zoom level for that curve alone, is
compiled for a property that may read and interpolate everything. The property
takes what it compiles to, with the stops of the curve, unless the curve stands
below a coalesce that is narrowed for an operand wider than the expected type:
then it is refused for not being top-level. -/
theorem zoom_route (hzoom : spec.allows .zoom = true)
    (hfeature : spec.allows .feature = true)
    (hstate : spec.allows .featureState = true)
    (hinterpolated : spec.interpolated = true) (hraw : raw.LeadsToCurve levels)
    (h : StyleExpression.compile .standard (some spec) raw = .ok e)
    (hone : e.expression.zoomReads = 1) :
    ((∀ n ∈ e.expression.nodes, n.NarrowsCoalesce → n.zoomReads = 0) →
      ∃ p, compile .standard spec raw = .ok p ∧ p.expression = e ∧
        (p.kind = .camera ∨ p.kind = .composite) ∧ p.zoomStops = levels) ∧
    ((∃ n ∈ e.expression.nodes, n.NarrowsCoalesce ∧ 0 < n.zoomReads) →
      compile .standard spec raw =
        .error [⟨[], .zoomCurve .notTopLevel⟩]) := by
  have hcompile : compile .standard spec raw =
      checkCurve spec e.expression >>= fun curve => .ok {
        kind := kindOf curve.isSome e.expression.ignoresFeature
        expression := e
        stateDependent := !e.expression.ignoresState
        zoomStops := (curve.map labelsOf).getD []
        interpolation := curve.bind interpolationOf? } := by
    rw [compile, h]
    show (checkInputs spec e.expression >>= _) = _
    rw [checkInputs_of_allows hzoom hfeature hstate]
    rfl
  obtain ⟨l, hl, hlevels, hroute⟩ :=
    Compiler.routed_of_compile hraw _ _ _
      (StyleExpression.expression_of_compile h)
  obtain ⟨hfound, hrefused⟩ := zoomCurve_of_unique hl
    fun l' hl' => hl.unique (Nat.le_of_eq hone) hl'
  refine ⟨fun hnone => ?_, ?_⟩
  · have htop : e.expression.IsTopLevel l := by
      refine hroute.resolve_right ?_
      rintro ⟨n, hn, hnarrows, hreads⟩
      exact absurd (hnone n hn hnarrows) (Nat.ne_of_gt hreads)
    have hcurve : checkCurve spec e.expression = .ok (some l.node) := by
      simp only [checkCurve, hfound htop, hinterpolated, Bool.not_true,
        Bool.and_false, Bool.false_eq_true, if_false]
      rfl
    rw [hcompile, hcurve]
    refine ⟨_, rfl, rfl, ?_, hlevels⟩
    cases e.expression.ignoresFeature with
    | true => exact .inl rfl
    | false => exact .inr rfl
  · rintro ⟨n, hn, hnarrows, hreads⟩
    have htop : ¬ e.expression.IsTopLevel l := fun htop => by
      have hnarrows := hnarrows.narrows
      rw [htop.not_narrows hl (Nat.le_of_eq hone) hn hreads] at hnarrows
      cases hnarrows
    have hcurve : checkCurve spec e.expression =
        .error [⟨[], .zoomCurve .notTopLevel⟩] := by
      simp only [checkCurve, hrefused htop]
      rfl
    rw [hcompile, hcurve]
    rfl

/-- A number property whose expressions may read and interpolate everything. -/
def openProperty : PropertySpecification :=
  { type := .number
    expression := some
      { interpolated := true, parameters := [.zoom, .feature, .featureState] } }

/-- `["step", ["zoom"], 0, 5, 1]`. -/
def zoomStep : Json :=
  .array [.string "step", .array [.string "zoom"], .number (.integer 0),
    .number (.integer 5), .number (.integer 1)]

/-- `["let", "a", 7, ["coalesce", ["step", ["zoom"], 0, 5, 1], ["var", "a"]]]`. -/
def routeDocument : Json :=
  .array [.string "let", .string "a", .number (.integer 7),
    .array [.string "coalesce", zoomStep,
      .array [.string "var", .string "a"]]]

/-- What the document compiles to. -/
def routeExpression : StyleExpression :=
  let number (n : Int) : Expr := .literal .number (.number (Float.ofInt n))
  { expression := .binding [("a", number 7)]
      (.coalesce .number
        [.step .number (.compound "zoom" .number .zoom false [])
          [(-Number.infinity, number 0), (Float.ofInt 5, number 1)],
         number 7])
    fallback := .null
    allowed := none }

theorem zoom_route_let :
    routeDocument.LeadsToCurve [-Number.infinity, Float.ofInt 5] ∧
      StyleExpression.compile .standard (some openProperty) routeDocument =
        .ok routeExpression ∧
      routeExpression.expression.zoomReads = 1 ∧
      ∃ p, compile .standard openProperty routeDocument = .ok p ∧
        p.expression = routeExpression ∧
        (p.kind = .camera ∨ p.kind = .composite) ∧
        p.zoomStops = [-Number.infinity, Float.ofInt 5] := by
  have hroute : routeDocument.LeadsToCurve [-Number.infinity, Float.ofInt 5] :=
    .body [.string "a", .number (.integer 7)]
      (.operand [] [.array [.string "var", .string "a"]]
        (.step (.number (.integer 0))
          [.number (.integer 5), .number (.integer 1)]))
  have hcompile : StyleExpression.compile .standard (some openProperty)
      routeDocument = .ok routeExpression := by
    rw [StyleExpression.compile_eq]
    rfl
  have hone : routeExpression.expression.zoomReads = 1 := by rfl
  have hnone : routeExpression.expression.nodes.all (!·.narrows) = true := by rfl
  refine ⟨hroute, hcompile, hone,
    (zoom_route rfl rfl rfl rfl hroute hcompile hone).1 fun n hn hnarrows => ?_⟩
  have hn := List.all_eq_true.1 hnone n hn
  rw [hnarrows.narrows] at hn
  cases hn

/-- `["coalesce", ["get", "x"], ["step", ["zoom"], 0, 5, 1]]` for the same
property. An operand of the coalesce leads to the only read of the zoom level, a
step over it, but the other one may be anything: the coalesce is asserted to be a
number, and the document is refused. -/
theorem zoom_route_refused :
    let raw : Json := .array [.string "coalesce",
      .array [.string "get", .string "x"], zoomStep]
    raw.LeadsToCurve [-Number.infinity, Float.ofInt 5] ∧
      (∃ e, StyleExpression.compile .standard (some openProperty) raw = .ok e ∧
        e.expression.zoomReads = 1) ∧
      compile .standard openProperty raw =
        .error [⟨[], .zoomCurve .notTopLevel⟩] := by
  intro raw
  have hcompile : ∃ e,
      StyleExpression.compile .standard (some openProperty) raw = .ok e ∧
        e.expression.zoomReads = 1 := by
    rw [StyleExpression.compile_eq]
    exact ⟨_, rfl, rfl⟩
  refine ⟨.operand [.array [.string "get", .string "x"]] []
    (.step (.number (.integer 0))
      [.number (.integer 5), .number (.integer 1)]), hcompile, ?_⟩
  rw [compile, StyleExpression.compile_eq]
  rfl

end PropertyExpression

end MapStyle
