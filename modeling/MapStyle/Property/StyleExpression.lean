import MapStyle.Parse.Compiler
import MapStyle.Property.Specification

/-!
# Expressions of a property

A compiled expression together with what its property prescribes. Rendering never fails: an
expression that has no value, or one that the property cannot use, falls back to the default.
-/

namespace MapStyle

/-- A compiled expression and the default of its property. -/
structure StyleExpression where
  expression : Expr
  fallback : Value
  /-- The names a string has to be one of. -/
  allowed : Option EnumValues

namespace StyleExpression

/-- Compiles a document against the type of a property, if one is given. String properties convert
what they are given. A tree counts only if the session has no diagnostic in the end. -/
def compile (registry : Registry) (spec : Option PropertySpecification) (raw : Json) :
    Compiled StyleExpression :=
  let expected := spec.map PropertySpecification.expectedType
  let how := if spec.any (·.type == .string) then some .coerce else none
  match (Session.start { registry } expected).compileRoot raw how with
  | (some expression, s) =>
    if s.hasErrors then .error s.diagnostics
    else
      return {
        expression
        fallback := (spec.bind PropertySpecification.fallback?).getD .null
        allowed := (spec.filter (·.type == .enum)).bind PropertySpecification.values }
  | (none, s) => .error s.diagnostics

/-- The value of the expression; a string that is no name of the enumeration is a failure. -/
def evaluate (e : StyleExpression) (ctx : Context) : Outcome := do
  let v ← e.expression.evaluate ctx
  match e.allowed, v with
  | some values, .string s => if values.contains s then return v else throw (.notInEnum values.names v)
  | _, _ => return v

/-- The value to render with: null, NaN and failures give the default. -/
def render (e : StyleExpression) (ctx : Context) : Value :=
  match e.evaluate ctx with
  | .ok .null => e.fallback
  | .ok (.number x) => if x.isNaN then e.fallback else .number x
  | .ok v => v
  | .error _ => e.fallback

end StyleExpression

end MapStyle
