import MapStyle.Property.StyleExpression

/-!
# What a property expression depends on

Renderers treat expressions by what they depend on: nothing, the feature, the zoom level, or both.
An expression that depends on zoom does so through one curve, whose stops tell at which zoom levels
it has to be evaluated. Inputs that the property does not allow are refused.
-/

namespace MapStyle

inductive ExpressionKind where
  | constant
  /-- The feature only. -/
  | source
  /-- The zoom level only. -/
  | camera
  /-- The feature and the zoom level. -/
  | composite
  deriving DecidableEq, Repr

def ExpressionKind.name : ExpressionKind → String
  | .constant => "constant"
  | .source => "source"
  | .camera => "camera"
  | .composite => "composite"

structure PropertyExpression where
  kind : ExpressionKind
  expression : StyleExpression
  stateDependent : Bool
  zoomStops : List Float
  /-- How the curve interpolates, if it does. -/
  interpolation : Option Interpolation

namespace PropertyExpression

def labelsOf : Expr → List Float
  | .step _ _ stops => stops.map Prod.fst
  | .interpolate _ _ _ _ stops => stops.map Prod.fst
  | _ => []

def interpolationOf? : Expr → Option Interpolation
  | .interpolate _ _ kind _ _ => some kind
  | _ => none

/-- The kind of an expression with or without a curve over zoom. -/
def kindOf (hasCurve featureConstant : Bool) : ExpressionKind :=
  match hasCurve, featureConstant with
  | false, true => .constant
  | false, false => .source
  | true, true => .camera
  | true, false => .composite

/-- Refuses an expression that reads an input the property does not allow. -/
def checkInputs (spec : PropertySpecification) (e : Expr) : Compiled Unit :=
  let root : Site := {}
  if !e.ignoresFeature && !spec.allows .feature then root.fail .dataForbidden
  else if !e.ignoresState && !spec.allows .featureState then root.fail .stateForbidden
  else if !e.ignores [.zoom] && !spec.allows .zoom then root.fail .zoomForbidden
  else return ()

/-- The curve over zoom, which has to be there if zoom is read and may interpolate only if the
property does. -/
def checkCurve (spec : PropertySpecification) (e : Expr) : Compiled (Option Expr) :=
  let root : Site := {}
  match e.zoomCurve with
  | .error error => root.fail (.zoomCurve error)
  | .ok none =>
    if e.ignores [.zoom] then return none else root.fail (.zoomCurve .notTopLevel)
  | .ok (some curve) =>
    if (interpolationOf? curve.node).isSome && !spec.interpolated then
      root.fail .interpolateForbidden
    else return some curve.node

/-- Compiles a document for a property and classifies it. -/
def compile (registry : Registry) (spec : PropertySpecification) (raw : Json) :
    Compiled PropertyExpression := do
  let expression ← StyleExpression.compile registry (some spec) raw
  let e := expression.expression
  checkInputs spec e
  let curve ← checkCurve spec e
  return {
    kind := kindOf curve.isSome e.ignoresFeature
    expression
    stateDependent := !e.ignoresState
    zoomStops := (curve.map labelsOf).getD []
    interpolation := curve.bind interpolationOf? }

def render (p : PropertyExpression) (ctx : Context) : Value :=
  p.expression.render ctx

def isInterpolated (p : PropertyExpression) : Bool :=
  p.interpolation.isSome

/-- The position of a zoom level between two stops, zero for steps. -/
def factor (p : PropertyExpression) (input lower upper : Float) : Float :=
  match p.interpolation with
  | some kind => kind.factor input lower upper
  | none => 0

end PropertyExpression

end MapStyle
