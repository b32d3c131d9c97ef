import MapStyle.Compile.Operand

/-!
# Items, searches and slices

These forms take a fixed number of operands, and most of them report what is wrong with their first
two operands together.
-/

namespace MapStyle.Compile

def expectCount (s : Site) (least most : Nat) (args : List Operand) : Compiled Unit :=
  if least ≤ args.length && args.length ≤ most then return ()
  else s.fail (.operandCount least most args.length)

def isNeedleType : Ty → Bool
  | .boolean | .string | .number | .null | .value => true
  | _ => false

/-- Whether values of a type are sequences, as far as is known. -/
def isSequenceType : Ty → Bool
  | .string | .value | .array _ _ => true
  | _ => false

/-- An item of an array. If the expected type is known, the array is expected to hold it. -/
def item (s : Site) (args : List Operand) : Compiled Expr := do
  expectCount s 2 2 args
  match args with
  | [index, input] =>
    let items : Ty := .array (s.expected.getD .value) none
    let (index, input) ←
      Operand.both (index.compileAt s 1 (some .number)) (input.compileAt s 2 (some items))
    match input.type with
    | .array item _ => return .item item index input
    | _ => return .item .value index input
  | _ => s.fail .missingOperand

/-- What to search for and where, checked for their types. -/
def needleAndHaystack (s : Site) (needle haystack : Operand) : Compiled (Expr × Expr) := do
  let (needle, haystack) ←
    Operand.both (needle.compileAt s 1 (some .value)) (haystack.compileAt s 2 (some .value))
  if !isNeedleType needle.type then s.fail (.needleType needle.type)
  else if !isSequenceType haystack.type then s.fail (.haystackType haystack.type)
  else return (needle, haystack)

def membership (s : Site) (args : List Operand) : Compiled Expr := do
  expectCount s 2 2 args
  match args with
  | [needle, haystack] =>
    let (needle, haystack) ← needleAndHaystack s needle haystack
    return .membership .boolean needle haystack
  | _ => s.fail .missingOperand

def optionalNumber (s : Site) (position : Nat) : List Operand → Compiled (Option Expr)
  | [] => return none
  | o :: _ => return some (← o.compileAt s position (some .number))

def position (s : Site) (args : List Operand) : Compiled Expr := do
  expectCount s 2 3 args
  match args with
  | needle :: haystack :: rest =>
    let (needle, haystack) ← needleAndHaystack s needle haystack
    return .position .number needle haystack (← optionalNumber s 3 rest)
  | _ => s.fail .missingOperand

/-- The type of a part of a sequence; there is none when the type is of no sequence. -/
def sliceType? : Ty → Option Ty
  | .array item _ => some (.array item none)
  | .string => some .string
  | .value => some .value
  | _ => none

def slice (s : Site) (args : List Operand) : Compiled Expr := do
  expectCount s 2 3 args
  match args with
  | input :: start :: rest =>
    let (input, start) ←
      Operand.both (input.compileAt s 1 (some .value)) (start.compileAt s 2 (some .number))
    match sliceType? input.type with
    | none => s.fail (.sliceInput input.type)
    | some ty => return .slice ty input start (← optionalNumber s 3 rest)
  | _ => s.fail .missingOperand

def length (s : Site) (args : List Operand) : Compiled Expr := do
  expectCount s 1 1 args
  match args with
  | [input] =>
    let input ← input.compileAt s 1 none
    if isSequenceType input.type then return .length .number input
    else s.fail (.lengthInput input.type)
  | _ => s.fail .missingOperand

end MapStyle.Compile
