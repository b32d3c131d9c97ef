import MapStyle.Curve.Interpolation
import MapStyle.Geometry.GeoJson
import MapStyle.Number.Whole
import MapStyle.Operator.Primitive

/-!
# Expression trees

A compiled expression. Every kind of expression has a constructor, every node knows its type, and a
reference to a bound name carries the expression it is bound to, so that a tree means the same
wherever it is evaluated.

`Expr.children` lists the direct subexpressions of a node and `Expr.fold` computes from the leaves
up. A reference has no children: what it is bound to is a child of the binding that introduced it.
-/

namespace MapStyle

/-- What a branch of a selection is chosen by. -/
inductive Label where
  | integer (n : Int)
  | text (s : String)
  deriving DecidableEq, Repr

namespace Label

/-- The label that a value can match: an integer of exact size, or a string. -/
def ofValue? : Value → Option Label
  | .number x => (Number.safeInteger? x).map .integer
  | .string s => some (.text s)
  | _ => none

/-- Integers in ascending order before strings in ascending order. -/
def le : Label → Label → Bool
  | .integer m, .integer n => m ≤ n
  | .integer _, .text _ => true
  | .text _, .integer _ => false
  | .text s, .text t => s ≤ t

end Label

inductive Expr where
  | literal (ty : Ty) (value : Value)
  /-- The first operand whose value has the type. -/
  | assertion (ty : Ty) (args : List Expr)
  /-- The first operand whose value can be converted to the type. -/
  | coercion (ty : Ty) (args : List Expr)
  | binding (names : List (String × Expr)) (body : Expr)
  | reference (name : String) (bound : Expr)
  | item (ty : Ty) (index input : Expr)
  | membership (ty : Ty) (needle haystack : Expr)
  | position (ty : Ty) (needle haystack : Expr) (start : Option Expr)
  | slice (ty : Ty) (input start : Expr) (stop : Option Expr)
  | length (ty : Ty) (input : Expr)
  /-- The output of the first test that holds. -/
  | conditional (ty : Ty) (branches : List (Expr × Expr)) (otherwise : Expr)
  /-- The output of the branch that has the input as a label. -/
  | selection (ty inputTy : Ty) (input : Expr) (branches : List (List Label × Expr))
      (otherwise : Expr)
  | coalesce (ty : Ty) (args : List Expr)
  | step (ty : Ty) (input : Expr) (stops : List (Float × Expr))
  | interpolate (ty : Ty) (space : ColorSpace) (kind : Interpolation) (input : Expr)
      (stops : List (Float × Expr))
  /-- A comparison; when it is untyped, the kinds of its operands are compared first. -/
  | comparison (ty : Ty) (op : Comparator) (untyped : Bool) (lhs rhs : Expr)
  | all (ty : Ty) (args : List Expr)
  | any (ty : Ty) (args : List Expr)
  | globalState (ty : Ty) (key : String)
  | within (ty : Ty) (region : List (Geometry.Polygon Float))
  | distance (ty : Ty) (shapes : List (Geometry.Shape Float))
  | compound (name : String) (ty : Ty) (primitive : Primitive) (impure : Bool) (args : List Expr)

instance : Inhabited Expr := ⟨.literal .null .null⟩

namespace Expr

def type : Expr → Ty
  | .literal ty _ | .assertion ty _ | .coercion ty _ | .item ty _ _ | .membership ty _ _
  | .position ty _ _ _ | .slice ty _ _ _ | .length ty _ | .conditional ty _ _
  | .selection ty _ _ _ _ | .coalesce ty _ | .step ty _ _ | .interpolate ty _ _ _ _
  | .comparison ty _ _ _ _ | .all ty _ | .any ty _ | .globalState ty _ | .within ty _
  | .distance ty _ | .compound _ ty _ _ _ => ty
  | .binding _ body => body.type
  | .reference _ bound => bound.type

def isLiteral : Expr → Bool
  | .literal _ _ => true
  | _ => false

/-- A literal as it stands in a document. -/
def ofJson (j : Json) : Expr :=
  let v := Value.ofJson j
  .literal v.type v

/-- The labels of a selection in order, each with the position of its branch. -/
def labelTable (branches : List (List Label × Expr)) : List (Label × Nat) :=
  (branches.zipIdx.flatMap fun ((labels, _), i) => labels.map fun l => (l, i)).mergeSort
    fun (l, _) (m, _) => l.le m

/-- The direct subexpressions of a node. -/
def children : Expr → List Expr
  | .literal _ _ | .reference _ _ | .globalState _ _ | .within _ _ | .distance _ _ => []
  | .assertion _ args | .coercion _ args | .coalesce _ args | .all _ args | .any _ args
  | .compound _ _ _ _ args => args
  | .binding names body => names.map Prod.snd ++ [body]
  | .item _ index input => [index, input]
  | .membership _ needle haystack => [needle, haystack]
  | .position _ needle haystack start => [needle, haystack] ++ start.toList
  | .slice _ input start stop => [input, start] ++ stop.toList
  | .length _ input => [input]
  | .conditional _ branches otherwise =>
    branches.flatMap (fun (test, output) => [test, output]) ++ [otherwise]
  | .selection _ _ input branches otherwise => input :: branches.map Prod.snd ++ [otherwise]
  | .step _ input stops => input :: stops.map Prod.snd
  | .interpolate _ _ _ input stops => input :: stops.map Prod.snd
  | .comparison _ _ _ lhs rhs => [lhs, rhs]

section Fold

variable {β : Type} (f : Expr → List β → β)

mutual

/-- Computes a result for every node from the node and the results of its children. -/
def fold : Expr → β
  | e@(.literal _ _) | e@(.reference _ _) | e@(.globalState _ _) | e@(.within _ _)
  | e@(.distance _ _) => f e []
  | e@(.assertion _ args) | e@(.coercion _ args) | e@(.coalesce _ args) | e@(.all _ args)
  | e@(.any _ args) | e@(.compound _ _ _ _ args) => f e (foldList args)
  | e@(.binding names body) => f e (foldNames names ++ [fold body])
  | e@(.item _ index input) => f e [fold index, fold input]
  | e@(.membership _ needle haystack) => f e [fold needle, fold haystack]
  | e@(.position _ needle haystack start) =>
    f e ([fold needle, fold haystack] ++ foldOption start)
  | e@(.slice _ input start stop) => f e ([fold input, fold start] ++ foldOption stop)
  | e@(.length _ input) => f e [fold input]
  | e@(.conditional _ branches otherwise) => f e (foldBranches branches ++ [fold otherwise])
  | e@(.selection _ _ input branches otherwise) =>
    f e (fold input :: foldLabelled branches ++ [fold otherwise])
  | e@(.step _ input stops) => f e (fold input :: foldStops stops)
  | e@(.interpolate _ _ _ input stops) => f e (fold input :: foldStops stops)
  | e@(.comparison _ _ _ lhs rhs) => f e [fold lhs, fold rhs]

def foldList : List Expr → List β
  | [] => []
  | e :: es => fold e :: foldList es

def foldNames : List (String × Expr) → List β
  | [] => []
  | (_, e) :: es => fold e :: foldNames es

def foldOption : Option Expr → List β
  | none => []
  | some e => [fold e]

def foldBranches : List (Expr × Expr) → List β
  | [] => []
  | (test, output) :: rest => fold test :: fold output :: foldBranches rest

def foldLabelled : List (List Label × Expr) → List β
  | [] => []
  | (_, e) :: es => fold e :: foldLabelled es

def foldStops : List (Float × Expr) → List β
  | [] => []
  | (_, e) :: es => fold e :: foldStops es

end

theorem foldList_eq_map (es : List Expr) : foldList f es = es.map (fold f) := by
  induction es with
  | nil => simp [foldList]
  | cons e es ih => simp [foldList, ih]

theorem foldNames_eq_map (es : List (String × Expr)) :
    foldNames f es = (es.map Prod.snd).map (fold f) := by
  induction es with
  | nil => simp [foldNames]
  | cons e es ih => simp [foldNames, ih]

theorem foldOption_eq_map (e : Option Expr) : foldOption f e = e.toList.map (fold f) := by
  cases e <;> simp [foldOption]

theorem foldBranches_eq_map (es : List (Expr × Expr)) :
    foldBranches f es = (es.flatMap fun (test, output) => [test, output]).map (fold f) := by
  induction es with
  | nil => simp [foldBranches]
  | cons e es ih => simp [foldBranches, ih]

theorem foldLabelled_eq_map (es : List (List Label × Expr)) :
    foldLabelled f es = (es.map Prod.snd).map (fold f) := by
  induction es with
  | nil => simp [foldLabelled]
  | cons e es ih => simp [foldLabelled, ih]

theorem foldStops_eq_map (es : List (Float × Expr)) :
    foldStops f es = (es.map Prod.snd).map (fold f) := by
  induction es with
  | nil => simp [foldStops]
  | cons e es ih => simp [foldStops, ih]

/-- A fold at a node is its step on the folds of the children. -/
theorem fold_eq (e : Expr) : e.fold f = f e (e.children.map (fold f)) := by
  cases e <;>
    simp [fold, children, foldList_eq_map, foldNames_eq_map, foldOption_eq_map,
      foldBranches_eq_map, foldLabelled_eq_map, foldStops_eq_map]

end Fold

/-- The expression and everything below it, parents before their children. References are not
followed. -/
def nodes : Expr → List Expr :=
  fold fun e below => e :: below.flatten

end Expr

end MapStyle
