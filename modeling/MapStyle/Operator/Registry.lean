import MapStyle.Operator.Primitive

/-!
# Operators and their registry

An operator is either a special form, which has a grammar of its own, or a compound operator, which
is described by typed signatures. A registry holds operators under distinct names; compiling consults
nothing else to know what a name means.
-/

namespace MapStyle

inductive SpecialForm where
  | literal
  | assertion
  | coercion
  | binding
  | reference
  | item
  | membership
  | position
  | slice
  | length
  | conditional
  | selection
  | coalesce
  | step
  | interpolate
  | comparison
  | all
  | any
  | globalState
  | within
  | distance
  deriving DecidableEq, Repr

inductive Params where
  | fixed (types : List Ty)
  /-- Any number of operands of one type. -/
  | variadic (ty : Ty)
  deriving DecidableEq, Repr

namespace Params

def acceptsCount : Params → Nat → Bool
  | .fixed types, n => types.length == n
  | .variadic _, _ => true

def expected : Params → Nat → List Ty
  | .fixed types, _ => types
  | .variadic ty, n => List.replicate n ty

def text : Params → String
  | .fixed types => "(" ++ ", ".intercalate (types.map Ty.text) ++ ")"
  | .variadic ty => "(" ++ ty.text ++ "...)"

end Params

/-- One signature of a compound operator and the operation behind it. Compiling chooses among
signatures by their parameters alone, whatever the operations are. -/
structure Signature (ω : Type) where
  params : Params
  primitive : ω
  deriving DecidableEq, Repr

/-- A compound operator. An impure one is never evaluated ahead of time. -/
structure CompoundOperator (ω : Type) where
  name : String
  output : Ty
  signatures : List (Signature ω)
  impure : Bool := false
  deriving DecidableEq, Repr

inductive Operator where
  | special (name : String) (form : SpecialForm)
  | compound (op : CompoundOperator Primitive)
  deriving DecidableEq, Repr

def Operator.name : Operator → String
  | .special name _ => name
  | .compound op => op.name

/-- Operators with distinct names. -/
structure Registry where
  operators : List Operator
  deriving DecidableEq, Repr

namespace Registry

def empty : Registry := ⟨[]⟩

def lookup (r : Registry) (name : String) : Option Operator :=
  r.operators.find? (·.name == name)

def contains (r : Registry) (name : String) : Bool :=
  (r.lookup name).isSome

def size (r : Registry) : Nat :=
  r.operators.length

/-- Adds an operator, in place of one with the same name if there is one. -/
def insert (r : Registry) (op : Operator) : Registry :=
  if r.contains op.name then
    ⟨r.operators.map fun o => if o.name == op.name then op else o⟩
  else ⟨r.operators ++ [op]⟩

def names (r : Registry) : List String :=
  (r.operators.map Operator.name).mergeSort fun a b => a ≤ b

/-- Whether a document looks like an expression: an array that starts with the name of an
operator. -/
def isExpression (r : Registry) : Json → Bool
  | .array (.string name :: _) => r.contains name
  | _ => false

end Registry

end MapStyle
