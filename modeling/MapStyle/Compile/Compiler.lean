import MapStyle.Compile.Binding
import MapStyle.Compile.Choice
import MapStyle.Compile.Collection
import MapStyle.Compile.Comparison
import MapStyle.Compile.Compound
import MapStyle.Compile.Curve
import MapStyle.Compile.Narrowing
import MapStyle.Compile.Region
import MapStyle.Expr.Analysis
import MapStyle.Expr.Evaluate

/-!
# The compiler

From a document to an expression tree. Scalars are literals, arrays are applications of the operator
they start with, and a bare object is an error. What comes out is narrowed to the type that is
expected, and replaced by its value where it is constant.

The recursion is on the document: each part of it becomes an operand that its parent's form can
compile at whatever site it chooses, as often as it likes.
-/

namespace MapStyle

structure Compiler where
  registry : Registry
  /-- Whether constant expressions are replaced by their values. -/
  folding : Bool := true

namespace Compile

def isNarrowable : Ty → Bool
  | .string | .number | .boolean | .object | .array _ _ => true
  | _ => false

def isCoercible : Ty → Bool
  | .string | .number | .boolean | .color => true
  | _ => false

/-- The expression narrowed to a type. What cannot be converted is asserted. -/
def narrow (how : Narrowing) (ty : Ty) (e : Expr) : Expr :=
  match how with
  | .omit => e
  | .coerce => if isCoercible ty then .coercion ty [e] else .assertion ty [e]
  | .assert => .assertion ty [e]

/-- The expression as something of the expected type. A value of unknown type is asserted to have
it, unless the caller wants otherwise; texts and unknown values become colors by conversion. -/
def conform (s : Site) (how : Option Narrowing) (e : Expr) : Compiled Expr :=
  match s.expected with
  | none => return e
  | some ty =>
    if isNarrowable ty && e.type == .value then return narrow (how.getD .assert) ty e
    else if ty == .color && (e.type == .value || e.type == .string) then
      return narrow (how.getD .coerce) ty e
    else if ty.accepts e.type then return e
    else s.fail (.mismatch ty e.type)

/-- The expression, or its value if it is constant. A constant that has no value is an error. -/
def settle (folding : Bool) (s : Site) (e : Expr) : Compiled Expr :=
  if folding && !e.isLiteral && e.isConstant then
    match e.evaluate {} with
    | .ok v => return .literal e.type v
    | .error failure => s.fail (.failure failure)
  else return e

def form (f : SpecialForm) (name : String) (s : Site) (args : List Operand) : Compiled Expr :=
  match f with
  | .literal => literal s args
  | .assertion => assertion name s args
  | .coercion => conversion name s args
  | .binding => binding s args
  | .reference => reference s args
  | .item => item s args
  | .membership => membership s args
  | .position => position s args
  | .slice => slice s args
  | .length => length s args
  | .conditional => conditional s args
  | .selection => selection s args
  | .coalesce => coalesce s args
  | .step => step s args
  | .interpolate => interpolate name s args
  | .comparison => comparison name s args
  | .all => connective .all s args
  | .any => connective .any s args
  | .globalState => globalState s args
  | .within => within s args
  | .distance => distance s args

def application (registry : Registry) (s : Site) : List Operand → Compiled Expr
  | [] => s.fail .emptyArray
  | head :: args =>
    match head.raw with
    | .string name =>
      match registry.lookup name with
      | some (.special name f) => form f name s args
      | some (.compound op) => compound op s args
      | none => s.failAt [0] (.unknownOperator name)
    | raw => s.failAt [0] (.headKind raw.kindName)

def finish (folding : Bool) (s : Site) (how : Option Narrowing) (e : Expr) : Compiled Expr := do
  settle folding s (← conform s how e)

end Compile

namespace Compiler

variable (c : Compiler)

mutual

def compile : Json → Site → Option Narrowing → Compiled Expr
  | .array items => fun s how => do
    Compile.finish c.folding s how (← Compile.application c.registry s (operands items))
  | .object _ => fun s _ => s.fail .bareObject
  | .null => fun s how => Compile.finish c.folding s how (Expr.ofJson .null)
  | .boolean b => fun s how => Compile.finish c.folding s how (Expr.ofJson (.boolean b))
  | .number n => fun s how => Compile.finish c.folding s how (Expr.ofJson (.number n))
  | .string t => fun s how => Compile.finish c.folding s how (Expr.ofJson (.string t))

def operands : List Json → List Operand
  | [] => []
  | j :: js => ⟨j, compile j⟩ :: operands js

end

end Compiler

end MapStyle
