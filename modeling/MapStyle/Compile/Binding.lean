import MapStyle.Compile.Operand

/-!
# Bound names

A binding lists names and values in turns and ends with a body in which the names stand for their
values. Values are compiled in the outer scope.
-/

namespace MapStyle.Compile

def isName (s : String) : Bool :=
  s.toList.all fun c => c.isAlphanum || c == '_'

def boundName (s : Site) (position : Nat) (raw : Json) : Compiled String :=
  match raw with
  | .string name => if isName name then return name else s.failAt [position] .nameCharacters
  | raw => s.failAt [position] (.nameKind raw.kindName)

/-- The bound names from a position on, and the body with its position. When the last name is
followed by a single operand, that operand is both its value and the body. -/
def boundNames (s : Site) :
    Nat → List Operand → Compiled (List (String × Expr) × Nat × Operand)
  | _, [] => s.fail .missingOperand
  | i, [body] => return ([], i, body)
  | i, [name, value] => do
    let name ← boundName s i name.raw
    let bound ← value.compileAt s (i + 1) none
    return ([(name, bound)], i + 1, value)
  | i, name :: value :: next :: rest => do
    let name ← boundName s i name.raw
    let bound ← value.compileAt s (i + 1) none
    let (names, position, body) ← boundNames s (i + 2) (next :: rest)
    return ((name, bound) :: names, position, body)

def binding (s : Site) (args : List Operand) : Compiled Expr :=
  if args.length < 3 then s.fail (.tooFewForBinding args.length)
  else do
    let (names, position, body) ← boundNames s 1 args
    return .binding names (← body.compile (s.child position s.expected names) none)

def reference (s : Site) (args : List Operand) : Compiled Expr :=
  match args.map Operand.raw with
  | [.string name] =>
    match s.scope.lookup name with
    | some bound => return .reference name bound
    | none => s.failAt [1] (.unknownVariable name)
  | _ => s.fail .referenceOperand

def globalState (s : Site) (args : List Operand) : Compiled Expr :=
  match args.map Operand.raw with
  | [.string key] => return .globalState .value key
  | _ => s.fail .globalName

end MapStyle.Compile
