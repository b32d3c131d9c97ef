import MapStyle.Parse.Rule

/-!
# The forms in a session

The grammar of each form as a rule on its operands.
-/

namespace MapStyle.Parse

open Rule

/-! ## Literals, assertions and conversions -/

/-- A literal. The empty array has no item type of its own and takes the expected one. -/
def literal (args : List Part) : Rule Expr :=
  match args with
  | [p] => do
    match Expr.ofJson p.raw, ← expected with
    | .literal (.array _ (some 0)) v, some (.array item length) =>
      if length.isNone || length == some 0 then return .literal (.array item length) v
      else return Expr.ofJson p.raw
    | e, _ => return e
  | args => error (.exactlyOne "literal" args.length)

def arrayItem (raw : Json) : Rule Ty :=
  match raw.string?.bind Compile.scalarType? with
  | some ty => if ty == .object then errorAt [1] .itemType else return ty
  | none => errorAt [1] .itemType

def arrayLength (raw : Json) : Rule (Option Nat) :=
  match raw with
  | .null => return none
  | .number n =>
    let x := n.toFloat
    if 0 ≤ x && Number.isWhole x then
      return some (min (Number.wholePart x).toNat Compile.largestLength)
    else errorAt [2] .arrayLength
  | _ => errorAt [2] .arrayLength

/-- An array assertion: an item type and a length may stand before the operands, but the last
operand is always one to check. -/
def arrayAssertion (args : List Part) : Rule Expr :=
  match args with
  | item :: length :: p :: rest => do
    let item ← arrayItem item.raw
    let length ← arrayLength length.raw
    return .assertion (.array item length) (← Part.parseAll (some .value) 3 (p :: rest))
  | [item, p] => do
    let item ← arrayItem item.raw
    return .assertion (.array item none) (← Part.parseAll (some .value) 2 [p])
  | args => return .assertion .anyArray (← Part.parseAll (some .value) 1 args)

def assertion (name : String) (args : List Part) : Rule Expr :=
  if args.isEmpty then error .noOperand
  else if name == "array" then arrayAssertion args
  else
    match Compile.scalarType? name with
    | none => error (.unknownAssertion name)
    | some ty => return .assertion ty (← Part.parseAll (some .value) 1 args)

def conversion (name : String) (args : List Part) : Rule Expr :=
  let ty := Compile.conversionType name
  if args.isEmpty then error .noOperand
  else if (ty == .boolean || ty == .string) && args.length != 1 then error .notOneOperand
  else return .coercion ty (← Part.parseAll (some .value) 1 args)

/-! ## Bound names -/

def boundName (position : Nat) (raw : Json) : Rule String :=
  match raw with
  | .string name =>
    if Compile.isName name then return name else errorAt [position] .nameCharacters
  | raw => errorAt [position] (.nameKind raw.kindName)

/-- Names and values in turns, as long as there are two operands. -/
def boundNames : Nat → List Part → Rule (List (String × Expr))
  | i, name :: value :: rest => do
    let name ← boundName i name.raw
    let bound ← value.parseAt (i + 1) none
    return (name, bound) :: (← boundNames (i + 2) rest)
  | _, _ => return []

/-- A binding. The last operand is the body, also if it has been read as a value before. -/
def binding (args : List Part) : Rule Expr :=
  if args.length < 3 then error (.tooFewForBinding args.length)
  else do
    let names ← boundNames 1 args
    match args.getLast? with
    | some body => return .binding names (← body.parseWith args.length (← expected) names none)
    | none => error .missingOperand

def reference (args : List Part) : Rule Expr :=
  match args.map Part.raw with
  | [.string name] => do
    match (← get).site.scope.lookup name with
    | some bound => return .reference name bound
    | none => errorAt [1] (.unknownVariable name)
  | _ => error .referenceOperand

def globalState (args : List Part) : Rule Expr :=
  match args.map Part.raw with
  | [.string key] => return .globalState .value key
  | _ => error .globalName

/-! ## Choices -/

/-- Parses an output against the type of the outputs so far, and sets that type if it was open. -/
def output (position : Nat) (ty : Option Ty) (p : Part) : Rule (Expr × Ty) := do
  let e ← p.parseAt position ty
  return (e, ty.getD e.type)

/-- Tests and outputs in turns, and the output when no test holds. -/
def branches : Nat → Option Ty → List Part → Rule (List (Expr × Expr) × Expr × Ty)
  | i, ty, [otherwise] => do
    let (e, ty) ← output i ty otherwise
    return ([], e, ty)
  | i, ty, test :: result :: rest => do
    let test ← test.parseAt i (some .boolean)
    let (result, ty) ← output (i + 1) ty result
    let (more, otherwise, ty) ← branches (i + 2) (some ty) rest
    return ((test, result) :: more, otherwise, ty)
  | _, _, [] => error .missingOperand

def conditional (args : List Part) : Rule Expr :=
  if args.length < 3 then error (.tooFewOperands 3 args.length)
  else if args.length % 2 == 0 then error .oddExpected
  else do
    let (branches, otherwise, ty) ← branches 1 (← declared) args
    return .conditional ty branches otherwise

def label (position : Nat) (raw : Json) : Rule (Label × Ty) :=
  match raw with
  | .number n =>
    let x := n.toFloat
    if Float.ofNat Number.largestSafe < x.abs then errorAt [position] .labelSize
    else
      match Number.safeInteger? x with
      | some i => return (.integer i, .number)
      | none => errorAt [position] .labelFraction
  | .string t => return (.text t, .string)
  | _ => errorAt [position] .labelKind

/-- The labels of one branch. `seen` holds the labels so far and `ty` their type, if there are
any. -/
def labels (position : Nat) :
    List Label → Option Ty → List Json → Rule (List Label × Option Ty)
  | _, ty, [] => return ([], ty)
  | seen, ty, raw :: rest => do
    let (l, found) ← label position raw
    expectType [position] (ty.getD found) found
    if seen.contains l then errorAt [position] .labelRepeated
    else
      let (more, ty) ← labels position (l :: seen) (some (ty.getD found)) rest
      return (l :: more, ty)

/-- Labels and outputs in turns. The last operand is left for the caller, with its position. -/
def labelled :
    Nat → List Label → Option Ty → Option Ty → List Part →
      Rule (List (List Label × Expr) × Option Ty × Option Ty × Nat × Part)
  | i, _, inputTy, ty, [otherwise] => return ([], inputTy, ty, i, otherwise)
  | i, seen, inputTy, ty, raw :: result :: rest => do
    let documents := Compile.labelDocuments raw.raw
    if documents.isEmpty then errorAt [i] .noLabel
    else
      let (ls, inputTy) ← labels i seen inputTy documents
      let (result, ty) ← output (i + 1) ty result
      let (more, rest) ← labelled (i + 2) (ls ++ seen) inputTy (some ty) rest
      return ((ls, result) :: more, rest)
  | _, _, _, _, [] => error .missingOperand

/-- A selection. Labels and outputs are parsed before the input is. -/
def selection (args : List Part) : Rule Expr :=
  if args.length < 4 then error (.tooFewOperands 4 args.length)
  else if args.length % 2 == 1 then error .evenExpected
  else
    match args with
    | [] => error .missingOperand
    | input :: rest => do
      let (branches, inputTy, ty, position, otherwise) ← labelled 2 [] none (← declared) rest
      let input ← input.parseAt 1 (some .value)
      let (otherwise, ty) ← output position ty otherwise
      let inputTy := inputTy.getD .value
      if input.type == .value then return .selection ty inputTy input branches otherwise
      else
        expectType [1] inputTy input.type
        return .selection ty inputTy input branches otherwise

/-- The operands of coalesce from a position on, as they are. -/
def alternatives : Nat → Option Ty → List Part → Rule (List Expr × Option Ty)
  | _, ty, [] => return ([], ty)
  | i, ty, p :: rest => do
    let e ← p.parseWith i ty [] (some .omit)
    let (es, ty) ← alternatives (i + 1) (some (ty.getD e.type)) rest
    return (e :: es, ty)

/-- The first operand that is not null. Operands are not narrowed, so that null can fall through;
when one is wider than expected, the whole is a `value` and is narrowed in their place. -/
def coalesce (args : List Part) : Rule Expr :=
  if args.isEmpty then error .noOperand
  else do
    let (es, ty) ← alternatives 1 (← declared) args
    let wider := (← expected).any fun expected => es.any fun e => !expected.accepts e.type
    return .coalesce (if wider then .value else ty.getD .value) es

def connective (node : Ty → List Expr → Expr) (args : List Part) : Rule Expr := do
  return node .boolean (← Part.parseAll (some .boolean) 1 args)

/-! ## Items, searches and slices -/

/-- Records a wrong number of operands and says whether the number is right. -/
def hasCount (least most : Nat) (args : List Part) : Rule Bool := do
  if least ≤ args.length && args.length ≤ most then return true
  else
    report [] (.operandCount least most args.length)
    return false

def expectCount (least most : Nat) (args : List Part) : Rule Unit := do
  if ← hasCount least most args then return () else failure

/-- An item of an array. If the expected type is known, the array is expected to hold it. -/
def item (args : List Part) : Rule Expr := do
  expectCount 2 2 args
  match args with
  | [index, input] =>
    let items : Ty := .array ((← expected).getD .value) none
    let (index, input) ←
      together (index.parseAt 1 (some .number)) (input.parseAt 2 (some items))
    match input.type with
    | .array item _ => return .item item index input
    | _ => return .item .value index input
  | _ => error .missingOperand

/-- What to search for and where, checked for their types. -/
def needleAndHaystack (needle haystack : Part) : Rule (Expr × Expr) := do
  let (needle, haystack) ←
    together (needle.parseAt 1 (some .value)) (haystack.parseAt 2 (some .value))
  if !Compile.isNeedleType needle.type then error (.needleType needle.type)
  else if !Compile.isSequenceType haystack.type then error (.haystackType haystack.type)
  else return (needle, haystack)

def membership (args : List Part) : Rule Expr := do
  expectCount 2 2 args
  match args with
  | [needle, haystack] =>
    let (needle, haystack) ← needleAndHaystack needle haystack
    return .membership .boolean needle haystack
  | _ => error .missingOperand

def optionalNumber (position : Nat) : List Part → Rule (Option Expr)
  | [] => return none
  | p :: _ => return some (← p.parseAt position (some .number))

def position (args : List Part) : Rule Expr := do
  expectCount 2 3 args
  match args with
  | needle :: haystack :: rest =>
    let (needle, haystack) ← needleAndHaystack needle haystack
    return .position .number needle haystack (← optionalNumber 3 rest)
  | _ => error .missingOperand

def slice (args : List Part) : Rule Expr := do
  expectCount 2 3 args
  match args with
  | input :: start :: rest =>
    let (input, start) ←
      together (input.parseAt 1 (some .value)) (start.parseAt 2 (some .number))
    match Compile.sliceType? input.type with
    | none => error (.sliceInput input.type)
    | some ty => return .slice ty input start (← optionalNumber 3 rest)
  | _ => error .missingOperand

def length (args : List Part) : Rule Expr := do
  expectCount 1 1 args
  match args with
  | [input] =>
    let input ← input.parseAt 1 none
    if Compile.isSequenceType input.type then return .length .number input
    else error (.lengthInput input.type)
  | _ => error .missingOperand

/-! ## Comparisons -/

def comparisonOperand (op : Comparator) (position : Nat) (p : Part) : Rule Expr := do
  let e ← p.parseAt position (some .value)
  if op.admits e.type then return e else errorAt [position] (.comparisonType op e.type)

/-- A comparison. Where only one type is known, an order asserts that the other operand has it. -/
def comparison (name : String) (args : List Part) : Rule Expr :=
  match Comparator.ofSymbol? name with
  | none => error .unknownComparison
  | some op =>
    match args with
    | [lhs, rhs] => do
      let lhs ← comparisonOperand op 1 lhs
      let rhs ← comparisonOperand op 2 rhs
      let (l, r) := (lhs.type, rhs.type)
      if !l.sameKind r && l != .value && r != .value then error (.incomparable l r)
      else
        let (lhs, rhs) :=
          if op.isOrdering then (Compile.narrowTo r lhs, Compile.narrowTo l rhs) else (lhs, rhs)
        return .comparison .boolean op (lhs.type == .value || rhs.type == .value) lhs rhs
    | [_, _, _] => errorAt [3] .collator
    | _ => error .comparisonCount

/-! ## Steps and interpolations -/

/-- Records a number of operands that is odd or too small and says whether the number is right. -/
def hasPairs (args : List Part) : Rule Bool := do
  if args.length < 4 then
    report [] (.tooFewOperands 4 args.length)
    return false
  else if args.length % 2 == 1 then
    report [] .evenExpected
    return false
  else return true

def expectPairs (args : List Part) : Rule Unit := do
  if ← hasPairs args then return () else failure

/-- The label at a position, which has to exceed the one before it. -/
def stopLabel (name : String) (position : Nat) (previous : Option Float) (raw : Json) :
    Rule Float :=
  match raw.number? with
  | none => errorAt [position] (.stopLabel name)
  | some x => if previous.any (x ≤ ·) then errorAt [position] (.stopOrder name) else return x

/-- Labels and outputs from a position on, and the type of the outputs. -/
def stops (name : String) :
    Nat → Option Float → Option Ty → List Part → Rule (List (Float × Expr) × Option Ty)
  | i, previous, ty, l :: p :: rest => do
    let x ← stopLabel name i previous l.raw
    let e ← p.parseAt (i + 1) ty
    let (more, ty) ← stops name (i + 2) (some x) (some (ty.getD e.type)) rest
    return ((x, e) :: more, ty)
  | _, _, ty, _ => return ([], ty)

/-- The stops and the type of their outputs, which has to be known in the end. -/
def typedStops (name : String) (previous : Option Float) (ty : Option Ty) (args : List Part) :
    Rule (List (Float × Expr) × Ty) := do
  let (stops, ty) ← stops name 3 previous ty args
  match ty with
  | some ty => return (stops, ty)
  | none => failure

/-- A step. Its first output has no label and counts from negative infinity. -/
def step (args : List Part) : Rule Expr := do
  expectPairs args
  match args with
  | input :: first :: rest =>
    let input ← input.parseAt 1 (some .number)
    let declared ← declared
    let first ← first.parseAt 2 declared
    let (more, ty) ←
      typedStops "step" (some (-Number.infinity)) (some (declared.getD first.type)) rest
    return .step ty input ((-Number.infinity, first) :: more)
  | _ => error .missingOperand

def interpolation (raw : Json) : Rule Interpolation :=
  match raw with
  | .array (head :: rest) =>
    match head with
    | .string "linear" => return .linear
    | .string "exponential" =>
      match rest.head?.bind Json.number? with
      | some base => return .exponential base
      | none => errorAt [1, 1] .exponentialBase
    | .string "cubic-bezier" =>
      match Compile.control? rest with
      | some kind => return kind
      | none => errorAt [1] .bezierControl
    | .string name => errorAt [1, 0] (.unknownInterpolation name)
    | other => errorAt [1, 0] (.unknownInterpolation other.text)
  | _ => errorAt [1] .interpolationMissing

/-- An interpolation. In a color space of its own it has color outputs. -/
def interpolate (name : String) (args : List Part) : Rule Expr :=
  match args with
  | [] => errorAt [1] .interpolationMissing
  | kind :: operands => do
    let kind ← interpolation kind.raw
    expectPairs args
    match operands with
    | input :: rest =>
      let input ← input.parseAt 2 (some .number)
      let space := Compile.colorSpace name
      let declared ← declared
      let (stops, ty) ←
        typedStops name none (if space == .rgb then declared else some .color) rest
      if Compile.isInterpolatable ty then return .interpolate ty space kind input stops
      else error (.notInterpolatable ty)
    | [] => error .missingOperand

/-! ## Geometry operands -/

def within (args : List Part) : Rule Expr :=
  match args with
  | [p] =>
    let region := Compile.regionOf p.raw
    if region.isEmpty then error (.region "within") else return .within .boolean region
  | args => error (.exactlyOne "within" args.length)

def distance (args : List Part) : Rule Expr :=
  match args with
  | [p] =>
    let shapes := Compile.shapesOf p.raw
    if shapes.isEmpty then error (.region "distance") else return .distance .number shapes
  | args => error (.exactlyOne "distance" args.length)

end MapStyle.Parse
