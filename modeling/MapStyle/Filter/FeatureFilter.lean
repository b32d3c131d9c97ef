import MapStyle.Filter.Legacy
import MapStyle.Operator.Standard
import MapStyle.Property.StyleExpression

/-!
# Feature filters

A filter decides which features a layer shows. It is compiled like an expression of a boolean
property that may read zoom and the feature and is false by default, after a legacy filter has been
brought into the expression grammar. Only a true result shows the feature.
-/

namespace MapStyle

/-- A compiled filter and what its callers need to know of it. -/
structure FeatureFilter where
  expression : StyleExpression
  /-- Whether evaluation may look at the decoded geometry. -/
  usesGeometry : Bool
  /-- The global variables that are read, in ascending order. -/
  globalNames : List String

namespace FeatureFilter

def specification : PropertySpecification :=
  { type := .boolean
    default := some (.boolean false)
    expression := some { interpolated := false, parameters := [.zoom, .feature] } }

/-- Compiles a filter of either grammar. Null gives the filter that passes every feature. -/
def compile (registry : Registry) (raw : Json) : Compiled FeatureFilter := do
  let filter := Filter.toExpression raw
  let expression ← StyleExpression.compile registry (some specification) filter
  return {
    expression
    usesGeometry := Filter.usesGeometry filter
    globalNames := expression.expression.globalNames }

def passes (f : FeatureFilter) (ctx : Context) : Bool :=
  match f.expression.render ctx with
  | .boolean b => b
  | _ => false

def failureText (ds : List Diagnostic) : String :=
  "invalid filter: " ++ Diagnostic.summary ds

end FeatureFilter

end MapStyle
