import MapStyle.Proofs.Compile.Folding
import MapStyle.Proofs.Parse.Compiler

/-!
# The types of compiled expressions

What compiles for a property is of the property's type, and every part of it
has values of its own type, as long as no part is partial: no distance and no
accumulated number.

Partial parts break that, and not only by being null, which rendering would
make up for. A coalesce with a partial first operand takes the type `number`
from it and leaves its other operands as they are. Where the property's type is
expected of the coalesce, its parent narrows it again; where nothing is
expected, as in a binding, nobody does, and a text can end up as the value of a
number property. There is no other way, as the last section shows.
-/

namespace MapStyle.StyleExpression

variable {raw : Json} {e : StyleExpression}

/-- The tree of a compiled expression is typed, and its type is the one that
the property expects. -/
theorem typed_of_compile {spec : Option PropertySpecification}
    (h : compile .standard spec raw = .ok e) :
    e.expression.Typed .standard ∧
      ∀ s ∈ spec, s.expectedType.accepts e.expression.type = true := by
  have htree := expression_of_compile h
  obtain ⟨_, -, hunfolds, hadmits⟩ :=
    Compiler.compile_unfolds Registry.standard_lawful htree
  refine ⟨hunfolds.typed, fun s hs => ?_⟩
  have hexpected : s.expectedType ∈
      spec.map PropertySpecification.expectedType := Option.mem_map_of_mem _ hs
  refine (hadmits s.expectedType hexpected).resolve_right fun hhow => ?_
  -- The root is never left to be narrowed by someone else.
  have hhow := hhow.1
  split at hhow <;> cases hhow

/-- Type soundness: without partial parts, the root is of the type that the
property expects, and in every context each part of the tree has values of its
own type only. -/
theorem type_soundness {spec : Option PropertySpecification}
    (h : compile .standard spec raw = .ok e)
    (hpartial : ∀ p : Expr, p.PartOf e.expression → p.isPartial = false) :
    (∀ s ∈ spec, s.expectedType.accepts e.expression.type = true) ∧
      ∀ p : Expr, p.PartOf e.expression → ∀ (ctx : Context) (v : Value),
        p.evaluate ctx = .ok v → p.type.accepts v.type = true := by
  obtain ⟨htyped, hexpected⟩ := typed_of_compile h
  refine ⟨hexpected, fun p hp ctx v hv => ?_⟩
  have hp' : p.Typed .standard := fun q hq => htyped q (hq.trans hp)
  exact hp'.accepts Registry.standard_lawful
    (fun q hq => hpartial q (hq.trans hp)) hv

/-- `["get", "x"]` for a number property, which asserts that it is one. -/
theorem type_soundness_get :
    ∃ e, compile .standard (some { type := .number })
        (.array [.string "get", .string "x"]) = .ok e ∧
      (∀ p : Expr, p.PartOf e.expression → p.isPartial = false) ∧
      Ty.number.accepts e.expression.type = true ∧
      ∀ p : Expr, p.PartOf e.expression → ∀ (ctx : Context) (v : Value),
        p.evaluate ctx = .ok v → p.type.accepts v.type = true := by
  let tree : Expr := .assertion .number
    [.compound "get" .value .property false [.literal .string (.string "x")]]
  have hcompile : compile .standard (some { type := .number })
      (.array [.string "get", .string "x"]) = .ok ⟨tree, .null, none⟩ := by rfl
  have hpartial : ∀ p : Expr, p.PartOf tree → p.isPartial = false := by
    refine Expr.forall_partOf.2 ⟨rfl, List.forall_mem_singleton.2 ?_⟩
    refine Expr.forall_partOf.2 ⟨rfl, List.forall_mem_singleton.2 ?_⟩
    exact Expr.forall_partOf.2 ⟨rfl, nofun⟩
  obtain ⟨hexpected, hparts⟩ := type_soundness hcompile hpartial
  exact ⟨_, hcompile, hpartial, hexpected _ rfl, hparts⟩

/-! ## Rendering -/

/-- The value of an expression is that of its tree, and where names are
prescribed it is one of them if it is a text. -/
theorem evaluate_eq_ok_iff {ctx : Context} {v : Value} :
    e.evaluate ctx = .ok v ↔ e.expression.evaluate ctx = .ok v ∧
      ∀ values ∈ e.allowed, ∀ s, v = .string s →
        values.contains s = true := by
  constructor
  · intro h
    obtain ⟨w, hw, h⟩ := ok_of_bind h
    split at h
    · next values s hallowed =>
        split at h
        · next hcontains =>
            obtain rfl := ok_of_pure h
            refine ⟨hw, fun values' hvalues s' hs => ?_⟩
            obtain rfl := Option.some.inj (hallowed.symm.trans hvalues)
            obtain rfl := Value.string.inj hs
            exact hcontains
        · cases h
    · next hother =>
        obtain rfl := ok_of_pure h
        exact ⟨hw, fun values hvalues s hs =>
          (hother values s hvalues hs).elim⟩
  · rintro ⟨hv, hnames⟩
    unfold evaluate
    rw [hv]
    dsimp only [bind, Except.bind]
    split
    · next values s hallowed =>
        rw [if_pos (hnames values hallowed s rfl)]
        rfl
    · rfl

/-- What is rendered is the default, or the value of the expression. -/
theorem render_eq_fallback_or_value (e : StyleExpression) (ctx : Context) :
    e.render ctx = e.fallback ∨ e.evaluate ctx = .ok (e.render ctx) := by
  unfold render
  split
  · exact .inl rfl
  · next hx =>
      split
      · exact .inl rfl
      · exact .inr hx
  · next hv => exact .inr hv
  · exact .inl rfl

/-- What is rendered is the default, or the value of the tree. -/
theorem render_cases (e : StyleExpression) (ctx : Context) :
    e.render ctx = e.fallback ∨
      e.expression.evaluate ctx = .ok (e.render ctx) :=
  (render_eq_fallback_or_value e ctx).imp_right fun h =>
    (evaluate_eq_ok_iff.1 h).1

/-- What is rendered for a property is the default or of the property's type,
except that in the place of a number there may be a stray value. -/
theorem render_typed_iff {spec : PropertySpecification}
    (h : compile .standard (some spec) raw = .ok e) (ctx : Context) :
    (e.render ctx = e.fallback ∨
        spec.expectedType.accepts (e.render ctx).type = true) ↔
      ¬ (spec.expectedType = .number ∧ e.render ctx ≠ e.fallback ∧
        e.expression.Stray ctx (e.render ctx)) := by
  obtain ⟨htyped, hexpected⟩ := typed_of_compile h
  have hexpected := hexpected spec rfl
  refine ⟨fun hrender ⟨hnumber, hfallback, hstray⟩ => ?_, fun hstray => ?_⟩
  · have haccepts := hrender.resolve_left hfallback
    rw [hnumber, hstray.not_number] at haccepts
    cases haccepts
  · rcases render_cases e ctx with hfallback | hvalue
    · exact .inl hfallback
    · refine or_iff_not_imp_left.2 fun hfallback => ?_
      rcases htyped.sound Registry.standard_lawful _ hvalue with
        haccepts | ⟨hnumber, hvalueStray⟩
      · exact Value.accepts_trans hexpected haccepts
      · rw [hnumber] at hexpected
        rcases Ty.eq_of_accepts_number hexpected with hty | hty
        · exact absurd ⟨hty, hfallback, hvalueStray⟩ hstray
        · rw [hty]
          exact Ty.value_accepts _

/-! A binding of such a coalesce, as the value of a number property. -/

/-- A property of number values, one by default. -/
def numberProperty : PropertySpecification :=
  { type := .number, default := some (.number (.integer 1)) }

/-- `["let", "a", ["coalesce", ["accumulated"], ["get", "x"]], ["var", "a"]]`. -/
def strayDocument : Json :=
  .array [.string "let", .string "a",
    .array [.string "coalesce", .array [.string "accumulated"],
      .array [.string "get", .string "x"]],
    .array [.string "var", .string "a"]]

/-- What the document compiles to. -/
def strayExpression : StyleExpression :=
  let value : Expr := .coalesce .number
    [.compound "accumulated" .number .accumulated false [],
     .compound "get" .value .property false
      [.literal .string (.string "x")]]
  { expression := .binding [("a", value)] (.reference "a" value)
    fallback := Value.ofJson (.number (.integer 1))
    allowed := none }

/-- A feature with a text where the document expects a number. -/
def textContext : Context :=
  { feature := some { kind := .point, properties := [("x", .string "hello")] } }

set_option maxRecDepth 4000 in
theorem compile_strayDocument :
    compile .standard (some numberProperty) strayDocument =
      .ok strayExpression := by
  rfl

theorem render_strayExpression :
    strayExpression.render textContext = .string "hello" := by
  rfl

theorem render_typed_iff_stray :
    compile .standard (some numberProperty) strayDocument =
        .ok strayExpression ∧
      ((strayExpression.render textContext = strayExpression.fallback ∨
          numberProperty.expectedType.accepts
            (strayExpression.render textContext).type = true) ↔
        ¬ (numberProperty.expectedType = .number ∧
          strayExpression.render textContext ≠ strayExpression.fallback ∧
          strayExpression.expression.Stray textContext
            (strayExpression.render textContext))) :=
  ⟨compile_strayDocument, render_typed_iff compile_strayDocument textContext⟩

/-- The text is rendered, which is neither the default nor a number. -/
theorem render_neither_default_nor_number :
    ∃ e, compile .standard (some numberProperty) strayDocument = .ok e ∧
      ¬ (e.render textContext = e.fallback ∨
        numberProperty.expectedType.accepts
          (e.render textContext).type = true) := by
  refine ⟨strayExpression, compile_strayDocument, ?_⟩
  rw [render_strayExpression]
  rintro (hfallback | haccepts)
  · cases hfallback
  · cases haccepts

end MapStyle.StyleExpression
