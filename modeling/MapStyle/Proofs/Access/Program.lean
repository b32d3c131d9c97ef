import MapStyle.Operator.Standard
import MapStyle.Property.StyleExpression
import MapStyle.Proofs.Access.Compilation
import MapStyle.Proofs.Typing.Soundness

/-!
# The program never misses an access

A document is compiled for a property, and the expression is evaluated and
rendered in a context, everything with bounds. The standard operators are all
that is assumed.
-/

namespace MapStyle

namespace Checked

/-- The default of a property, if one is given. A color is read from text. -/
def fallback? : Option PropertySpecification → Option (Option Value)
  | none => some none
  | some spec =>
    match spec.type, spec.default with
    | .color, some (.string s) => do return (← parse s).map .color
    | _, _ => some spec.fallback?

def compileExpression (r : Registry) (spec : Option PropertySpecification)
    (raw : Json) : CheckedCompiled StyleExpression := do
  let expected := spec.map PropertySpecification.expectedType
  let how := if spec.any (·.type == .string) then some .coerce else none
  let expression ← compile r raw { expected } how
  let fallback : Option Value ← fallback? spec
  return {
    expression
    fallback := fallback.getD .null
    allowed :=
      (spec.filter (·.type == .enum)).bind PropertySpecification.values }

def evaluateExpression (e : StyleExpression) (ctx : Context) :
    Option Outcome := do
  let outcome ← evaluate ctx e.expression
  return do
    let v ← outcome
    match e.allowed, v with
    | some values, .string s =>
      if values.contains s then return v
      else throw (.notInEnum values.names v)
    | _, _ => return v

def render (e : StyleExpression) (ctx : Context) : Option Value := do
  match ← evaluateExpression e ctx with
  | .ok .null => return e.fallback
  | .ok (.number x) => return if x.isNaN then e.fallback else .number x
  | .ok v => return v
  | .error _ => return e.fallback

/-- Compiles a document, and evaluates and renders the expression. -/
def execute (r : Registry) (spec : Option PropertySpecification) (raw : Json)
    (ctx : Context) : CheckedCompiled (Outcome × Value) := do
  let e ← compileExpression r spec raw
  let outcome : Outcome ← evaluateExpression e ctx
  let value : Value ← render e ctx
  return (outcome, value)

variable {r : Registry} {spec : Option PropertySpecification} {raw : Json}

theorem fallback?_eq (spec : Option PropertySpecification) :
    fallback? spec = some (spec.bind PropertySpecification.fallback?) := by
  cases spec with
  | none => rfl
  | some spec =>
      rw [fallback?]
      split
      · next s htype hdefault =>
          rw [parse_eq, Option.bind_some, PropertySpecification.fallback?,
            htype, hdefault]
          rfl
      · rfl

theorem compileExpression_returns (hl : r.Lawful) (hr : r.Supplies) :
    Returns (compileExpression r spec raw)
      (StyleExpression.compile r spec raw) := by
  rw [StyleExpression.compile_eq]
  exact .bind ((compile_answers hl hr raw).returns _ fun _ hb => nomatch hb)
    fun _ _ => .access (fallback?_eq spec) .pure

theorem evaluateExpression_eq {e : StyleExpression} {ctx : Context}
    (h : Evaluates ctx e.expression) :
    evaluateExpression e ctx = some (e.evaluate ctx) := by
  rw [evaluateExpression, h]
  rfl

theorem render_eq {e : StyleExpression} {ctx : Context}
    (h : Evaluates ctx e.expression) : render e ctx = some (e.render ctx) := by
  rw [render, evaluateExpression_eq h, StyleExpression.render,
    Option.bind_eq_bind, Option.bind_some]
  cases e.evaluate ctx with
  | error failure => rfl
  | ok v => cases v <;> rfl

end Checked

/-- Whatever the document, the property and the context: no index or range is
out of bounds and no difference is below zero while the document is compiled
and the expression evaluated and rendered. The program with bounds comes to
what the program comes to. -/
theorem StyleExpression.no_access_missing
    (spec : Option PropertySpecification) (raw : Json) (ctx : Context) :
    (Checked.execute .standard spec raw ctx).run =
      some ((fun e => (e.evaluate ctx, e.render ctx)) <$>
        compile .standard spec raw) := by
  rw [map_eq_pure_bind]
  refine Returns.bind (Checked.compileExpression_returns
    Registry.standard_lawful Registry.standard_supplies) fun e he => ?_
  obtain ⟨htyped, -⟩ := typed_of_compile he
  have hevaluates : Checked.Evaluates ctx e.expression :=
    Checked.evaluates_of_typed Registry.standard_supplies htyped
  exact .access (Checked.evaluateExpression_eq hevaluates)
    (.access (Checked.render_eq hevaluates) .pure)

end MapStyle
