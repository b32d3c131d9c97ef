import MapStyle.Compile.Operand

/-!
# Literals, assertions and conversions
-/

namespace MapStyle.Compile

/-- A literal. The empty array has no item type of its own and takes the expected one. -/
def literal (s : Site) (args : List Operand) : Compiled Expr :=
  match args with
  | [o] =>
    match Expr.ofJson o.raw, s.expected with
    | .literal (.array _ (some 0)) v, some (.array item length) =>
      if length.isNone || length == some 0 then return .literal (.array item length) v
      else return Expr.ofJson o.raw
    | e, _ => return e
  | args => s.fail (.exactlyOne "literal" args.length)

def scalarType? (name : String) : Option Ty :=
  if name == "string" then some .string
  else if name == "number" then some .number
  else if name == "boolean" then some .boolean
  else if name == "object" then some .object
  else none

/-- The largest length an array type can name. -/
def largestLength : Nat := 18446744073709551615

/-- The length operand of an array assertion; null leaves it open. -/
def arrayLength (s : Site) (raw : Json) : Compiled (Option Nat) :=
  match raw with
  | .null => return none
  | .number n =>
    let x := n.toFloat
    if 0 ≤ x && Number.isWhole x then return some (min (Number.wholePart x).toNat largestLength)
    else s.failAt [2] .arrayLength
  | _ => s.failAt [2] .arrayLength

def arrayItem (s : Site) (raw : Json) : Compiled Ty :=
  match raw.string?.bind scalarType? with
  | some ty => if ty == .object then s.failAt [1] .itemType else return ty
  | none => s.failAt [1] .itemType

/-- An array assertion: an item type and a length may stand before the operands, but the last
operand is always one to check. -/
def arrayAssertion (s : Site) (args : List Operand) : Compiled Expr := do
  let anything : Option Ty := some .value
  match args with
  | item :: length :: o :: rest =>
    let item ← arrayItem s item.raw
    let length ← arrayLength s length.raw
    return .assertion (.array item length) (← Operand.compileAll s anything 3 (o :: rest))
  | [item, o] =>
    let item ← arrayItem s item.raw
    return .assertion (.array item none) (← Operand.compileAll s anything 2 [o])
  | args => return .assertion .anyArray (← Operand.compileAll s anything 1 args)

def assertion (name : String) (s : Site) (args : List Operand) : Compiled Expr :=
  if args.isEmpty then s.fail .noOperand
  else if name == "array" then arrayAssertion s args
  else
    match scalarType? name with
    | none => s.fail (.unknownAssertion name)
    | some ty => return .assertion ty (← Operand.compileAll s (some .value) 1 args)

def conversionType (name : String) : Ty :=
  if name == "to-boolean" then .boolean
  else if name == "to-color" then .color
  else if name == "to-number" then .number
  else .string

/-- A conversion to the type that the form is named after. Everything has a truth value and a text,
so those two have no use for further operands. -/
def conversion (name : String) (s : Site) (args : List Operand) : Compiled Expr :=
  let ty := conversionType name
  if args.isEmpty then s.fail .noOperand
  else if (ty == .boolean || ty == .string) && args.length != 1 then s.fail .notOneOperand
  else return .coercion ty (← Operand.compileAll s (some .value) 1 args)

end MapStyle.Compile
