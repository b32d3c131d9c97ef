import MapStyle.Proofs.Compile.Scoping
import MapStyle.Proofs.Parse.Compiler

/-!
# What an outcome depends on

The analyses answer for a tree before there is a context. They are sound if a
tree has one outcome in any two contexts that differ only in what the tree is
said not to read; `Scoped.evaluate_eq` says this of all inputs at once, with the
parameters that the tree depends on, its global variables, and the feature and
the tile where it looks at geometry. The answers to the single questions follow.

A tree is closed when it comes out of the compiler, which is what makes looking
at its nodes enough.
-/

namespace MapStyle

namespace Expr

variable {e n : Expr} {ctx ctx' : Context}

/-! ## Single nodes -/

/-- The primitive of a node reads nothing that the node does not read. -/
theorem readsAny_of_mem_reads {name : String} {ty : Ty} {primitive : Primitive}
    {impure : Bool} {args : List Expr} {params : List Parameter}
    {p : Parameter} (hp : p ∈ primitive.reads) (hparams : p ∈ params) :
    (compound name ty primitive impure args).readsAny params = true :=
  List.any_eq_true.2 ⟨p, hp, List.contains_iff_mem.2 hparams⟩

/-- Contexts are the same to a node if they agree on what the node reads. -/
theorem readsAlike_of_agreeOn
    (hparams : ∀ p, n.readsAny [p] = true → ctx.AgreeOn ctx' p)
    (hgeometry : n.looksAtGeometry = true →
      ctx.feature = ctx'.feature ∧ ctx.tile = ctx'.tile)
    (hglobal : ∀ ty key, n = .globalState ty key →
      ctx.globalState.lookup key = ctx'.globalState.lookup key) :
    n.ReadsAlike ctx ctx' := by
  cases n with
  | globalState ty key =>
      show ctx.globalValue key = ctx'.globalValue key
      rw [Context.globalValue, Context.globalValue, hglobal ty key rfl]
  | within ty region =>
      obtain ⟨hfeature, htile⟩ := hgeometry rfl
      simp only [ReadsAlike, Semantics.within, Context.positions?,
        Context.kind?, hfeature, htile]
  | distance ty shapes =>
      obtain ⟨hfeature, htile⟩ := hgeometry rfl
      simp only [ReadsAlike, Semantics.distance, Context.positions?,
        Context.kind?, hfeature, htile]
  | compound name ty primitive impure args =>
      refine Primitive.apply_congr fun p hp => hparams p ?_
      exact readsAny_of_mem_reads hp List.mem_cons_self
  | _ => trivial

/-! ## What the analyses say of the nodes -/

theorem mem_insertName {name key : String} {names : List String} :
    name ∈ insertName key names ↔ name = key ∨ name ∈ names := by
  induction names with
  | nil => exact List.mem_cons
  | cons first rest ih =>
      rw [insertName]
      split
      · exact List.mem_cons
      · split
        · next hkey =>
            obtain rfl := eq_of_beq hkey
            simp
        · rw [List.mem_cons, ih, List.mem_cons]
          tauto

theorem mem_foldl_insertName {name : String} {keys names : List String} :
    name ∈ keys.foldl (fun names key => insertName key names) names ↔
      name ∈ keys ∨ name ∈ names := by
  induction keys generalizing names with
  | nil => simp
  | cons key keys ih =>
      rw [List.foldl_cons, ih, mem_insertName, List.mem_cons]
      tauto

/-- The global variables of a tree are those that its nodes name. -/
theorem mem_globalNames {key : String} :
    key ∈ e.globalNames ↔ ∃ ty, .globalState ty key ∈ e.nodes := by
  rw [globalNames, mem_foldl_insertName, List.mem_filterMap]
  constructor
  · rintro (⟨n, hn, hkey⟩ | hkey)
    · split at hkey
      · next ty key' =>
          obtain rfl := Option.some.inj hkey
          exact ⟨ty, hn⟩
      · cases hkey
    · cases hkey
  · rintro ⟨ty, hn⟩
    exact .inl ⟨_, hn, rfl⟩

theorem mem_dependsOn {p : Parameter} :
    p ∈ e.dependsOn ↔ ∃ n ∈ e.nodes, n.readsAny [p] = true := by
  have hall : p ∈ Parameter.all := by cases p <;> decide
  simp [dependsOn, ignores, hall]

/-- A tree that ignores parameters does not depend on them. -/
theorem not_mem_of_ignores {params : List Parameter}
    (h : e.ignores params = true) {p : Parameter} (hp : p ∈ e.dependsOn) :
    p ∉ params := by
  intro hparams
  obtain ⟨n, hn, hreads⟩ := mem_dependsOn.1 hp
  have hignores := List.all_eq_true.1 h n hn
  cases n with
  | compound name ty primitive impure args =>
      obtain ⟨q, hq, hqp⟩ := List.any_eq_true.1 hreads
      obtain rfl := List.mem_singleton.1 (List.contains_iff_mem.1 hqp)
      rw [readsAny_of_mem_reads hq hparams] at hignores
      cases hignores
  | _ => cases hreads

/-- A tree that ignores the feature neither reads it or its state nor looks at
its geometry. -/
theorem ignoresFeature_iff : e.ignoresFeature = true ↔
    e.ignores [.feature, .featureState] = true ∧
      ∀ n ∈ e.nodes, n.looksAtGeometry = false := by
  simp only [ignoresFeature, ignores, List.all_eq_true, Bool.and_eq_true,
    Bool.not_eq_true']
  exact ⟨fun h => ⟨fun n hn => (h n hn).1, fun n hn => (h n hn).2⟩,
    fun h n hn => ⟨h.1 n hn, h.2 n hn⟩⟩

/-! ## Closed trees -/

/-- A closed tree has one outcome in contexts that agree on what its nodes are
said to read. -/
theorem Scoped.evaluate_eq (h : e.Scoped [])
    (hparams : ∀ p ∈ e.dependsOn, ctx.AgreeOn ctx' p)
    (hgeometry : ∀ n ∈ e.nodes, n.looksAtGeometry = true →
      ctx.feature = ctx'.feature ∧ ctx.tile = ctx'.tile)
    (hglobal : ∀ key ∈ e.globalNames,
      ctx.globalState.lookup key = ctx'.globalState.lookup key) :
    e.evaluate ctx = e.evaluate ctx' := by
  refine evaluate_congr fun n hn => ?_
  have hn := h.mem_nodes hn
  refine readsAlike_of_agreeOn ?_ (hgeometry n hn) ?_
  · exact fun p hp => hparams p (mem_dependsOn.2 ⟨n, hn, hp⟩)
  · rintro ty key rfl
    exact hglobal key (mem_globalNames.2 ⟨ty, hn⟩)

/-- No feature, state or tile matters to a tree that ignores the feature. -/
theorem Scoped.evaluate_of_ignoresFeature (h : e.Scoped [])
    (hignores : e.ignoresFeature = true) (feature : Option Feature)
    (featureState : Fields) (tile : Option Geometry.Tile) :
    e.evaluate { ctx with feature, featureState, tile } = e.evaluate ctx := by
  obtain ⟨hignores, hgeometry⟩ := ignoresFeature_iff.1 hignores
  refine h.evaluate_eq (fun p hp => ?_) (fun n hn hlooks => ?_) fun _ _ => rfl
  · have hne := not_mem_of_ignores hignores hp
    cases p with
    | feature | featureState => simp at hne
    | _ => rfl
  · rw [hgeometry n hn] at hlooks
    cases hlooks

/-- No parameter of the renderer matters to a tree that ignores it. -/
theorem Scoped.evaluate_of_ignores (h : e.Scoped []) {params : List Parameter}
    (hfeature : .feature ∉ params) (hignores : e.ignores params = true)
    (hagree : ∀ p, p ∉ params → ctx.AgreeOn ctx' p)
    (htile : ctx.tile = ctx'.tile)
    (hglobal : ctx.globalState = ctx'.globalState) :
    e.evaluate ctx = e.evaluate ctx' := by
  refine h.evaluate_eq (fun p hp => ?_) (fun _ _ _ => ?_) fun _ _ => ?_
  · exact hagree p (not_mem_of_ignores hignores hp)
  · exact ⟨hagree .feature hfeature, htile⟩
  · rw [hglobal]

/-- No global variable matters to a tree that does not name it. -/
theorem Scoped.evaluate_of_globalNames (h : e.Scoped []) {globalState : Fields}
    (hglobal : ∀ key ∈ e.globalNames,
      globalState.lookup key = ctx.globalState.lookup key) :
    e.evaluate { ctx with globalState } = e.evaluate ctx := by
  refine h.evaluate_eq (fun p _ => ?_) (fun _ _ _ => ⟨rfl, rfl⟩) hglobal
  cases p <;> rfl

end Expr

namespace StyleExpression

variable {spec : Option PropertySpecification} {raw : Json}
  {e : StyleExpression}

theorem scoped_of_compile {r : Registry} (h : compile r spec raw = .ok e) :
    e.expression.Scoped [] :=
  Compiler.scoped_of_compile (expression_of_compile h)

/-- What the analyses say a compiled expression does not read makes no
difference to its outcome: the feature with its state and tile, the state alone,
global parameters, and global variables that are not named. -/
theorem evaluate_noninterference (h : compile .standard spec raw = .ok e)
    (ctx : Context) :
    (e.expression.ignoresFeature = true → ∀ feature featureState tile,
      e.expression.evaluate { ctx with feature, featureState, tile } =
        e.expression.evaluate ctx) ∧
    (e.expression.ignoresState = true → ∀ featureState,
      e.expression.evaluate { ctx with featureState } =
        e.expression.evaluate ctx) ∧
    (∀ params ⊆ Parameter.globals, e.expression.ignores params = true →
      ∀ ctx' : Context, (∀ p, p ∉ params → ctx'.AgreeOn ctx p) →
        ctx'.tile = ctx.tile → ctx'.globalState = ctx.globalState →
        e.expression.evaluate ctx' = e.expression.evaluate ctx) ∧
    (∀ globalState : Fields, (∀ key ∈ e.expression.globalNames,
        globalState.lookup key = ctx.globalState.lookup key) →
      e.expression.evaluate { ctx with globalState } =
        e.expression.evaluate ctx) := by
  have hscoped := scoped_of_compile h
  refine ⟨hscoped.evaluate_of_ignoresFeature, fun hignores featureState => ?_,
    fun params hparams hignores ctx' => ?_,
    fun _ => hscoped.evaluate_of_globalNames⟩
  · refine hscoped.evaluate_of_ignores (by decide) hignores (fun p hp => ?_)
      rfl rfl
    cases p with
    | featureState => simp at hp
    | _ => rfl
  · have hfeature : Parameter.feature ∉ params := fun hp =>
      absurd (hparams hp) (by decide)
    exact hscoped.evaluate_of_ignores hfeature hignores

/-- `["let", "a", ["global-state", "x"], ["concat", ["zoom"], ["var", "a"]]]`
depends on the zoom level and one global variable. -/
def labelDocument : Json :=
  .array [.string "let", .string "a",
    .array [.string "global-state", .string "x"],
    .array [.string "concat", .array [.string "zoom"],
      .array [.string "var", .string "a"]]]

/-- What the document compiles to. -/
def labelExpression : StyleExpression :=
  { expression := .binding [("a", .globalState .value "x")]
      (.compound "concat" .string .concat false
        [.compound "zoom" .number .zoom false [],
         .reference "a" (.globalState .value "x")])
    fallback := .null
    allowed := none }

theorem compile_labelDocument :
    compile .standard none labelDocument = .ok labelExpression := by
  rfl

theorem evaluate_noninterference_label :
    compile .standard none labelDocument = .ok labelExpression ∧
      (∀ feature featureState tile, labelExpression.expression.evaluate
          { feature, featureState, tile } =
        labelExpression.expression.evaluate {}) ∧
      (∀ featureState, labelExpression.expression.evaluate { featureState } =
        labelExpression.expression.evaluate {}) ∧
      (∀ lineProgress, labelExpression.expression.evaluate { lineProgress } =
        labelExpression.expression.evaluate {}) ∧
      labelExpression.expression.evaluate { globalState := [("y", .null)] } =
        labelExpression.expression.evaluate {} := by
  obtain ⟨hfeature, hstate, hparams, hglobal⟩ :=
    evaluate_noninterference compile_labelDocument {}
  refine ⟨compile_labelDocument, hfeature rfl, hstate rfl,
    fun lineProgress => ?_, hglobal _ (List.forall_mem_singleton.2 rfl)⟩
  refine hparams [.lineProgress] (by decide) rfl _ (fun p hp => ?_) rfl rfl
  cases p with
  | lineProgress => simp at hp
  | _ => rfl

end StyleExpression

end MapStyle
