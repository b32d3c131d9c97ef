import MapStyle.Parse.Forms

/-!
# Compiling in a session

The compiler as a rule. An application of a compound operator tries the signatures that so many
operands fit, each in a session of its own, and keeps the first that ends without a diagnostic. If
none does, the session of the only attempt is taken over; where there was not exactly one, the
operands are parsed again without expectations, to report their types.
-/

namespace MapStyle

namespace CompoundOperator

variable {ω : Type}

/-- The signatures that take so many operands. -/
def candidates (op : CompoundOperator ω) (n : Nat) : List (Signature ω) :=
  op.signatures.filter fun o => o.params.acceptsCount n

/-- The signatures that a failure names: those in question, or all if there is none. -/
def named (op : CompoundOperator ω) (n : Nat) : List (Signature ω) :=
  if (op.candidates n).isEmpty then op.signatures else op.candidates n

end CompoundOperator

namespace Parse

open Rule

variable {ω : Type}

/-- Parses operands from a position on, each against a type of its own, up to the first that gives
nothing. -/
def operandsAgainst : Nat → List Ty → List Part → Rule (List Expr)
  | i, ty :: tys, p :: ps => do
    match ← (p.parseAt i (some ty)).outcome with
    | some e => return e :: (← operandsAgainst (i + 1) tys ps)
    | none => return []
  | _, _, _ => return []

/-- Records a mismatch for each operand that is not of its type. -/
def checkEach : Nat → List Ty → List Expr → Rule Unit
  | i, ty :: tys, e :: es => do
    let _ ← checkType [i] ty e.type
    checkEach (i + 1) tys es
  | _, _, _ => return ()

/-- Tries a signature. What it parses counts only if the session has no diagnostic in the end. -/
def attempt (op : CompoundOperator ω) (args : List Part) (signature : Signature ω) :
    Rule (Application ω) := do
  let tys := signature.params.expected args.length
  let es ← operandsAgainst 1 tys args
  if es.length == args.length then
    checkEach 1 tys es
    if (← get).hasErrors then failure
    else return ⟨op.name, op.output, signature.primitive, op.impure, es⟩
  else failure

/-- Tries signatures in order up to the first that takes the operands; without one, the session of
the last attempt is kept. -/
def firstFitting (op : CompoundOperator ω) (args : List Part) :
    List (Signature ω) → Option Session → Rule (Option (Application ω) × Option Session)
  | [], last => return (none, last)
  | signature :: rest, _ => do
    match (← get).fork.run (attempt op args signature) with
    | (some a, side) => return (some a, some side)
    | (none, side) => firstFitting op args rest (some side)

/-- Parses the operands with nothing expected of them and reports what they are. -/
def noSignature (args : List Part) (signatures : List (Signature ω)) : Rule (Application ω) := do
  let found ← Part.parseAll none 1 args
  error (.noSignature (signatures.map Signature.params) (found.map Expr.type))

def choice (op : CompoundOperator ω) (args : List Part) : Rule (Application ω) := do
  let candidates := op.candidates args.length
  match ← firstFitting op args candidates none with
  | (some a, _) => return a
  | (none, last) =>
    if candidates.length == 1 then
      modify fun s => last.elim s s.absorb
      failure
    else noSignature args (op.named args.length)

def compound (op : CompoundOperator Primitive) (args : List Part) : Rule Expr := do
  return (← choice op args).node

def form (f : SpecialForm) (name : String) (args : List Part) : Rule Expr :=
  match f with
  | .literal => literal args
  | .assertion => assertion name args
  | .coercion => conversion name args
  | .binding => binding args
  | .reference => reference args
  | .item => item args
  | .membership => membership args
  | .position => position args
  | .slice => slice args
  | .length => length args
  | .conditional => conditional args
  | .selection => selection args
  | .coalesce => coalesce args
  | .step => step args
  | .interpolate => interpolate name args
  | .comparison => comparison name args
  | .all => connective .all args
  | .any => connective .any args
  | .globalState => globalState args
  | .within => within args
  | .distance => distance args

def application (registry : Registry) : List Part → Rule Expr
  | [] => error .emptyArray
  | head :: args =>
    match head.raw with
    | .string name =>
      match registry.lookup name with
      | some (.special name f) => form f name args
      | some (.compound op) => compound op args
      | none => errorAt [0] (.unknownOperator name)
    | raw => errorAt [0] (.headKind raw.kindName)

/-- The expression as something of the expected type. -/
def conform (how : Option Narrowing) (e : Expr) : Rule Expr := do
  match ← expected with
  | none => return e
  | some ty =>
    if Compile.isNarrowable ty && e.type == .value then
      return Compile.narrow (how.getD .assert) ty e
    else if ty == .color && (e.type == .value || e.type == .string) then
      return Compile.narrow (how.getD .coerce) ty e
    else
      expectType [] ty e.type
      return e

/-- The expression, or its value if it is constant. A constant that has no value is an error. -/
def settle (folding : Bool) (e : Expr) : Rule Expr :=
  if folding && !e.isLiteral && e.isConstant then
    match e.evaluate {} with
    | .ok v => return .literal e.type v
    | .error failure => error (.failure failure)
  else return e

def finish (folding : Bool) (how : Option Narrowing) (e : Expr) : Rule Expr := do
  settle folding (← conform how e)

end Parse

namespace Compiler

variable (c : Compiler)

mutual

def parse : Json → Option Narrowing → Rule Expr
  | .array items => fun how => do
    Parse.finish c.folding how (← Parse.application c.registry (parts items))
  | .object _ => fun _ => Rule.error .bareObject
  | .null => fun how => Parse.finish c.folding how (Expr.ofJson .null)
  | .boolean b => fun how => Parse.finish c.folding how (Expr.ofJson (.boolean b))
  | .number n => fun how => Parse.finish c.folding how (Expr.ofJson (.number n))
  | .string t => fun how => Parse.finish c.folding how (Expr.ofJson (.string t))

def parts : List Json → List Part
  | [] => []
  | j :: js => ⟨j, parse j⟩ :: parts js

end

end Compiler

namespace Session

def compileRoot (s : Session) (raw : Json) (how : Option Narrowing) : Option Expr × Session :=
  s.run (s.compiler.parse raw how)

def compileOperand (s : Session) (raw : Json) (position : Nat) (expected : Option Ty)
    (names : List (String × Expr)) (how : Option Narrowing) : Option Expr × Session :=
  s.run (Part.parseWith ⟨raw, s.compiler.parse raw⟩ position expected names how)

end Session

end MapStyle
