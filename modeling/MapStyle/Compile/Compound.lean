import MapStyle.Compile.Operand

/-!
# Choosing a signature

A compound operator takes the first signature that so many operands fit and against whose types they
all compile. When there is only one signature for that number of operands, its diagnostics are the
answer; otherwise the operands are compiled once more without expectations, to say which types were
found.

The choice does not ask what the operation of a signature is. It ends with an application, which is
a node of a tree where the operation is a primitive.
-/

namespace MapStyle

/-- An application of a compound operator, with the operation of the signature that was chosen. -/
structure Application (ω : Type) where
  name : String
  output : Ty
  primitive : ω
  impure : Bool
  args : List Expr

def Application.node (a : Application Primitive) : Expr :=
  .compound a.name a.output a.primitive a.impure a.args

namespace Compile

variable {ω : Type}

/-- Compiles operands from a position on, each against a type of its own. -/
def operandsAgainst (s : Site) : Nat → List Ty → List Operand → Compiled (List Expr)
  | i, ty :: tys, o :: os => do
    let e ← o.compileAt s i (some ty)
    return e :: (← operandsAgainst s (i + 1) tys os)
  | _, _, _ => return []

def attempt (op : CompoundOperator ω) (s : Site) (args : List Operand) (signature : Signature ω) :
    Compiled (Application ω) := do
  let es ← operandsAgainst s 1 (signature.params.expected args.length) args
  return ⟨op.name, op.output, signature.primitive, op.impure, es⟩

def firstFitting (op : CompoundOperator ω) (s : Site) (args : List Operand) :
    List (Signature ω) → Option (Application ω)
  | [] => none
  | signature :: rest =>
    match attempt op s args signature with
    | .ok a => some a
    | .error _ => firstFitting op s args rest

/-- The failure of an operator none of whose signatures takes the operands. -/
def noSignature (s : Site) (args : List Operand) (signatures : List (Signature ω)) :
    Compiled (Application ω) := do
  let found ← Operand.compileAll s none 1 args
  s.fail (.noSignature (signatures.map Signature.params) (found.map Expr.type))

def choice (op : CompoundOperator ω) (s : Site) (args : List Operand) :
    Compiled (Application ω) :=
  match op.signatures.filter fun o => o.params.acceptsCount args.length with
  | [] => noSignature s args op.signatures
  | [only] => attempt op s args only
  | several =>
    match firstFitting op s args several with
    | some a => return a
    | none => noSignature s args several

def compound (op : CompoundOperator Primitive) (s : Site) (args : List Operand) :
    Compiled Expr := do
  return (← choice op s args).node

end Compile

end MapStyle
