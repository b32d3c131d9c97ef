import MapStyle.Expr.Basic

/-!
# The curve over zoom

A step or an interpolation whose input is the zoom level may be the one thing in an expression that
depends on zoom. It has to be reachable from the root through the bodies of bindings and the
operands of coalesce alone, and there has to be no other.

Curves are told apart by where they are: the path of child positions that leads to them.
-/

namespace MapStyle

/-- Why a tree has no admissible curve over zoom. -/
inductive ZoomCurveError where
  | notTopLevel
  | several
  deriving DecidableEq, Repr

def ZoomCurveError.message : ZoomCurveError → String
  | .notTopLevel => "\"zoom\" expression may only be used as input to a top-level \"step\" or \"interpolate\" expression."
  | .several => "Only one zoom-based \"step\" or \"interpolate\" subexpression may be used in an expression."

/-- A node and the path of child positions that leads to it. -/
structure Located where
  path : List Nat
  node : Expr

/-- The same node as seen from the parent in which it lies under the child at `position`. -/
def Located.under (position : Nat) (l : Located) : Located :=
  ⟨position :: l.path, l.node⟩

namespace Expr

/-- Whether an expression is the zoom level itself: an operator without operands that reads nothing
else. -/
def isZoomInput : Expr → Bool
  | .compound _ _ primitive _ [] => primitive.reads == [.zoom]
  | _ => false

def isZoomCurve : Expr → Bool
  | .step _ input _ => input.isZoomInput
  | .interpolate _ _ _ input _ => input.isZoomInput
  | _ => false

abbrev CurveSearch := Except ZoomCurveError (Option Located)

/-- The first curve that a list of searches found; a failure before it is the answer. -/
def firstCurve : List CurveSearch → CurveSearch
  | [] => return none
  | s :: rest => do
    match ← s with
    | some curve => return some curve
    | none => firstCurve rest

/-- The curve that the node itself admits, given the searches of its children. -/
def admittedCurve (e : Expr) (below : List CurveSearch) : CurveSearch :=
  match e with
  | .binding _ _ => firstCurve below.getLast?.toList
  | .coalesce _ _ => firstCurve below
  | e => return if e.isZoomCurve then some ⟨[], e⟩ else none

/-- Checks that no search of a child found anything but the admitted curve. -/
def checkCurves (admitted : Option Located) : List CurveSearch → Except ZoomCurveError Unit
  | [] => return ()
  | s :: rest => do
    match ← s, admitted with
    | none, _ => checkCurves admitted rest
    | some _, none => throw .notTopLevel
    | some curve, some own => if own.path == curve.path then checkCurves admitted rest else throw .several

/-- The search at a node, given the searches of its children. -/
def searchCurve (e : Expr) (below : List CurveSearch) : CurveSearch := do
  let below := below.zipIdx.map fun (s, i) => s.map fun found => found.map (Located.under i)
  let admitted ← admittedCurve e below
  checkCurves admitted below
  return admitted

def zoomCurve : Expr → CurveSearch :=
  fold searchCurve

end Expr

end MapStyle
