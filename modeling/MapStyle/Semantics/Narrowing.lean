import MapStyle.Color.Css
import MapStyle.EvalError
import MapStyle.Number.Read
import MapStyle.Text.Blank

/-!
# Asserting and converting types

Both nodes try their operands in order. An assertion takes the first whose value already has the
type; a conversion takes the first whose value can be turned into it. Conversions exist to booleans,
numbers and colors, and everything has a text.
-/

namespace MapStyle.Semantics

/-- The first value of type `ty`; when none has it, the failure names the type of `last`. -/
def assertType (ty : Ty) (last : Value) : List Outcome → Outcome
  | [] => throw (.typeMismatch ty last.type)
  | o :: rest => do
    let v ← o
    if ty.accepts v.type then return v else assertType ty v rest

/-- The number that a text stands for, NaN if it is none. Blanks around it are dropped, nothing at
all is zero, and only digits, signs, points and exponents may make up a number. -/
def numberOfText (s : String) : Float :=
  let cs := Text.trimChars s.toList
  let allowed (c : Char) : Bool :=
    c.isDigit || c == '+' || c == '-' || c == '.' || c == 'e' || c == 'E'
  let word := String.ofList cs
  if cs.isEmpty then 0
  else if word == "Infinity" || word == "+Infinity" then Number.infinity
  else if word == "-Infinity" then -Number.infinity
  else if cs.all allowed then (Number.read? cs).getD Number.nan
  else Number.nan

def numberOf : Value → Float
  | .null => 0
  | .boolean b => if b then 1 else 0
  | .number x => x
  | .string s => numberOfText s
  | .color _ | .array _ | .object _ => Number.nan

/-- The number of the first operand that converts to one; null is zero. The failure names
`last`. -/
def toNumber (last : Value) : List Outcome → Except EvalError Float
  | [] => throw (.notANumber last)
  | o :: rest => do
    let v ← o
    let x := numberOf v
    if x.isNaN then toNumber v rest else return x

/-- The color that a value converts to: itself, the one its text stands for, or the one whose three
or four channels it lists. -/
def colorOf (v : Value) : Except ColorFailure Color :=
  match v with
  | .color c => .ok c
  | .string s =>
    match Color.parse? s with
    | some c => .ok c
    | none => .error (.unreadable v)
  | .array items =>
    let channel (item : Value) : Float := item.number?.getD Number.nan
    let build (r g b : Value) (a : Option Value) : Except ColorFailure Color :=
      match Color.fault? (channel r) (channel g) (channel b) (a.map channel) with
      | some fault => .error (.outOfRange fault)
      | none => .ok (Color.ofBytes (channel r) (channel g) (channel b) ((a.map channel).getD 1))
    match items with
    | [r, g, b] => build r g b none
    | [r, g, b, a] => build r g b (some a)
    | _ => .error (.itemCount v)
  | _ => .error (.unreadable v)

/-- The color of the first operand that converts to one. The failure is that of the last operand,
or `failure` if there is none. -/
def toColor (failure : ColorFailure) : List Outcome → Except EvalError Color
  | [] => throw (.invalidColor failure)
  | o :: rest => do
    match colorOf (← o) with
    | .ok c => return c
    | .error failure => toColor failure rest

/-- The value of the first operand, null if there is none. -/
def firstOperand : List Outcome → Outcome
  | [] => return .null
  | o :: _ => o

/-- The first operand that can be converted to the type. -/
def convert (ty : Ty) (args : List Outcome) : Outcome :=
  match ty with
  | .boolean => do return .boolean (← firstOperand args).isTruthy
  | .color => do return .color (← toColor (.unreadable .null) args)
  | .number => do return .number (← toNumber .null args)
  | _ => do return .string (← firstOperand args).text

end MapStyle.Semantics
