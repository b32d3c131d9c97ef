import MapStyle.Compile.Operand

/-!
# Conditionals, selections and the first operand that is not null

The outputs of a choice have to agree in type. The type is the expected one, if it says anything;
otherwise the first output to be compiled sets it for the others.
-/

namespace MapStyle.Compile

/-- Compiles an output against the type of the outputs so far, and sets that type if it was open. -/
def output (s : Site) (position : Nat) (ty : Option Ty) (o : Operand) : Compiled (Expr × Ty) := do
  let e ← o.compileAt s position ty
  return (e, ty.getD e.type)

/-- Tests and outputs in turns, and the output when no test holds. -/
def branches (s : Site) :
    Nat → Option Ty → List Operand → Compiled (List (Expr × Expr) × Expr × Ty)
  | i, ty, [otherwise] => do
    let (e, ty) ← output s i ty otherwise
    return ([], e, ty)
  | i, ty, test :: result :: rest => do
    let test ← test.compileAt s i (some .boolean)
    let (result, ty) ← output s (i + 1) ty result
    let (more, otherwise, ty) ← branches s (i + 2) (some ty) rest
    return ((test, result) :: more, otherwise, ty)
  | _, _, [] => s.fail .missingOperand

def conditional (s : Site) (args : List Operand) : Compiled Expr :=
  if args.length < 3 then s.fail (.tooFewOperands 3 args.length)
  else if args.length % 2 == 0 then s.fail .oddExpected
  else do
    let (branches, otherwise, ty) ← branches s 1 s.declared args
    return .conditional ty branches otherwise

def label (s : Site) (position : Nat) (raw : Json) : Compiled (Label × Ty) :=
  match raw with
  | .number n =>
    let x := n.toFloat
    if Float.ofNat Number.largestSafe < x.abs then s.failAt [position] .labelSize
    else
      match Number.safeInteger? x with
      | some i => return (.integer i, .number)
      | none => s.failAt [position] .labelFraction
  | .string t => return (.text t, .string)
  | _ => s.failAt [position] .labelKind

/-- The labels of one branch. `seen` holds the labels so far and `ty` their type, if there are
any. -/
def labels (s : Site) (position : Nat) :
    List Label → Option Ty → List Json → Compiled (List Label × Option Ty)
  | _, ty, [] => return ([], ty)
  | seen, ty, raw :: rest => do
    let (l, found) ← label s position raw
    let expected := ty.getD found
    if !expected.accepts found then s.failAt [position] (.mismatch expected found)
    else if seen.contains l then s.failAt [position] .labelRepeated
    else
      let (more, ty) ← labels s position (l :: seen) (some expected) rest
      return (l :: more, ty)

def labelDocuments : Json → List Json
  | .array items => items
  | single => [single]

/-- Labels and outputs in turns. The last operand is left for the caller, with its position. -/
def labelled (s : Site) :
    Nat → List Label → Option Ty → Option Ty → List Operand →
      Compiled (List (List Label × Expr) × Option Ty × Option Ty × Nat × Operand)
  | i, _, inputTy, ty, [otherwise] => return ([], inputTy, ty, i, otherwise)
  | i, seen, inputTy, ty, raw :: result :: rest => do
    let documents := labelDocuments raw.raw
    if documents.isEmpty then s.failAt [i] .noLabel
    else
      let (ls, inputTy) ← labels s i seen inputTy documents
      let (result, ty) ← output s (i + 1) ty result
      let (more, rest) ← labelled s (i + 2) (ls ++ seen) inputTy (some ty) rest
      return ((ls, result) :: more, rest)
  | _, _, _, _, [] => s.fail .missingOperand

/-- A selection. Labels and outputs are compiled before the input is. -/
def selection (s : Site) (args : List Operand) : Compiled Expr :=
  if args.length < 4 then s.fail (.tooFewOperands 4 args.length)
  else if args.length % 2 == 1 then s.fail .evenExpected
  else
    match args with
    | [] => s.fail .missingOperand
    | input :: rest => do
      let (branches, inputTy, ty, position, otherwise) ← labelled s 2 [] none s.declared rest
      let input ← input.compileAt s 1 (some .value)
      let (otherwise, ty) ← output s position ty otherwise
      let inputTy := inputTy.getD .value
      if input.type != .value && !inputTy.accepts input.type then
        s.failAt [1] (.mismatch inputTy input.type)
      else return .selection ty inputTy input branches otherwise

/-- The operands of coalesce from a position on, as they are. -/
def alternatives (s : Site) : Nat → Option Ty → List Operand → Compiled (List Expr × Option Ty)
  | _, ty, [] => return ([], ty)
  | i, ty, o :: rest => do
    let e ← o.compile (s.child i ty []) (some .omit)
    let (es, ty) ← alternatives s (i + 1) (some (ty.getD e.type)) rest
    return (e :: es, ty)

/-- The first operand that is not null. Operands are not narrowed, so that null can fall through;
when one is wider than expected, the whole is a `value` and is narrowed in their place. -/
def coalesce (s : Site) (args : List Operand) : Compiled Expr :=
  if args.isEmpty then s.fail .noOperand
  else do
    let (es, ty) ← alternatives s 1 s.declared args
    let wider := s.expected.any fun expected => es.any fun e => !expected.accepts e.type
    return .coalesce (if wider then .value else ty.getD .value) es

def connective (node : Ty → List Expr → Expr) (s : Site) (args : List Operand) : Compiled Expr := do
  return node .boolean (← Operand.compileAll s (some .boolean) 1 args)

end MapStyle.Compile
