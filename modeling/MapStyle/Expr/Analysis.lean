import MapStyle.Expr.Basic

/-!
# What a tree depends on

Static questions about a compiled expression: whether it reads the feature, its state or some of the
other inputs, which global variables it names, and whether it can be evaluated once and for all.

Except for the last, each is a question about the single nodes of the tree. Operators answer for
themselves through what their primitive declares to read.
-/

namespace MapStyle.Expr

/-- Whether the node itself, its children aside, is an operator that reads one of the parameters. -/
def readsAny (params : List Parameter) : Expr → Bool
  | .compound _ _ primitive _ _ => primitive.reads.any params.contains
  | _ => false

def looksAtGeometry : Expr → Bool
  | .within _ _ | .distance _ _ => true
  | _ => false

/-- Whether nothing of the feature is read: no property, id, geometry or state. -/
def ignoresFeature (e : Expr) : Bool :=
  e.nodes.all fun n => !n.readsAny [.feature, .featureState] && !n.looksAtGeometry

/-- Whether none of the parameters is read by an operator. -/
def ignores (params : List Parameter) (e : Expr) : Bool :=
  e.nodes.all fun n => !n.readsAny params

def ignoresState (e : Expr) : Bool :=
  e.ignores [.featureState]

def dependsOn (e : Expr) : List Parameter :=
  Parameter.all.filter fun p => !e.ignores [p]

/-- Puts a name into an ascending list of names that has it at most once. -/
def insertName (name : String) : List String → List String
  | [] => [name]
  | n :: rest =>
    if name < n then name :: n :: rest else if name == n then n :: rest else n :: insertName name rest

/-- The names of global variables that the tree reads, in ascending order. -/
def globalNames (e : Expr) : List String :=
  (e.nodes.filterMap fun n =>
    match n with
    | .globalState _ key => some key
    | _ => none).foldl (fun names key => insertName key names) []

/-- Whether the node may be evaluated ahead of time as far as its own kind goes. -/
def isFoldable : Expr → Bool
  | .compound _ _ _ impure _ => !impure
  | .within _ _ | .distance _ _ | .globalState _ _ => false
  | _ => true

/-- Whether no runtime input is read at all, global variables and geometry by location aside. -/
def readsNothing (e : Expr) : Bool :=
  e.ignoresFeature && e.ignores Parameter.globals

mutual

/-- Whether the expression can be replaced by its value. Conversions and assertions can when their
operands can; any other node only when its operands are literals already; a reference when what it
is bound to can. -/
def isConstant : Expr → Bool
  | .reference _ bound => isConstant bound
  | e@(.assertion _ args) | e@(.coercion _ args) => allConstant args && e.readsNothing
  | e => e.isFoldable && e.children.all isLiteral && e.readsNothing

def allConstant : List Expr → Bool
  | [] => true
  | e :: es => isConstant e && allConstant es

end

end MapStyle.Expr
