import MapStyle.Expr.Basic
import MapStyle.Operator.Apply
import MapStyle.Semantics.Choice
import MapStyle.Semantics.Collection
import MapStyle.Semantics.Comparison
import MapStyle.Semantics.Curve
import MapStyle.Semantics.Narrowing
import MapStyle.Semantics.Region

/-!
# Evaluation

The value of a tree in a context. The outcomes of the subexpressions are handed to the rule of the
node's kind, which looks at them in the order in which they count; a failure that no rule looks at
does no harm.

A binding has the value of its body, and a reference that of the expression it is bound to.
-/

namespace MapStyle.Expr

variable (ctx : Context)

mutual

def evaluate : Expr → Outcome
  | .literal _ value => return value
  | .assertion ty args => Semantics.assertType ty .null (evaluateList args)
  | .coercion ty args => Semantics.convert ty (evaluateList args)
  | .binding _ body => evaluate body
  | .reference _ bound => evaluate bound
  | .item _ index input => Semantics.item input.type (evaluate index) (evaluate input)
  | .membership _ needle haystack => Semantics.contains (evaluate needle) (evaluate haystack)
  | .position _ needle haystack start =>
    Semantics.position (evaluate needle) (evaluate haystack) (evaluateOption start)
  | .slice _ input start stop =>
    Semantics.slice (evaluate input) (evaluate start) (evaluateOption stop)
  | .length _ input => Semantics.length (evaluate input)
  | .conditional _ branches otherwise =>
    Semantics.conditional (evaluateBranches branches) (evaluate otherwise)
  | .selection _ inputTy input branches otherwise =>
    Semantics.selection inputTy (evaluate input) (evaluateLabelled branches) (evaluate otherwise)
  | .coalesce _ args => Semantics.coalesce (evaluateList args)
  | .step _ input stops => Semantics.step (evaluate input) (evaluateStops stops)
  | .interpolate ty space kind input stops =>
    Semantics.interpolate ty space kind (evaluate input) (evaluateStops stops)
  | .comparison _ op untyped lhs rhs =>
    Semantics.comparison op untyped (evaluate lhs) (evaluate rhs)
  | .all _ args => Semantics.all (evaluateList args)
  | .any _ args => Semantics.any (evaluateList args)
  | .globalState _ key => return ctx.globalValue key
  | .within _ region => return .boolean (Semantics.within ctx region)
  | .distance _ shapes => return Semantics.distance ctx shapes
  | .compound _ _ primitive _ args => primitive.apply ctx (evaluateList args)

def evaluateList : List Expr → List Outcome
  | [] => []
  | e :: es => evaluate e :: evaluateList es

def evaluateOption : Option Expr → Option Outcome
  | none => none
  | some e => some (evaluate e)

def evaluateBranches : List (Expr × Expr) → List (Outcome × Outcome)
  | [] => []
  | (test, output) :: rest => (evaluate test, evaluate output) :: evaluateBranches rest

def evaluateLabelled : List (List Label × Expr) → List (List Label × Outcome)
  | [] => []
  | (labels, e) :: rest => (labels, evaluate e) :: evaluateLabelled rest

def evaluateStops : List (Float × Expr) → List (Float × Outcome)
  | [] => []
  | (label, e) :: rest => (label, evaluate e) :: evaluateStops rest

end

theorem evaluateList_eq_map (es : List Expr) : evaluateList ctx es = es.map (evaluate ctx) := by
  induction es with
  | nil => simp [evaluateList]
  | cons e es ih => simp [evaluateList, ih]

theorem evaluateOption_eq_map (e : Option Expr) :
    evaluateOption ctx e = e.map (evaluate ctx) := by
  cases e <;> simp [evaluateOption]

theorem evaluateBranches_eq_map (es : List (Expr × Expr)) :
    evaluateBranches ctx es = es.map fun (t, o) => (evaluate ctx t, evaluate ctx o) := by
  induction es with
  | nil => simp [evaluateBranches]
  | cons e es ih => simp [evaluateBranches, ih]

theorem evaluateLabelled_eq_map (es : List (List Label × Expr)) :
    evaluateLabelled ctx es = es.map fun (l, e) => (l, evaluate ctx e) := by
  induction es with
  | nil => simp [evaluateLabelled]
  | cons e es ih => simp [evaluateLabelled, ih]

theorem evaluateStops_eq_map (es : List (Float × Expr)) :
    evaluateStops ctx es = es.map fun (l, e) => (l, evaluate ctx e) := by
  induction es with
  | nil => simp [evaluateStops]
  | cons e es ih => simp [evaluateStops, ih]

end MapStyle.Expr
