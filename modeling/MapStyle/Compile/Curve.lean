import MapStyle.Compile.Operand
import MapStyle.Json.Text

/-!
# Steps and interpolations

A curve lists labels and outputs in turns. Labels are number literals in strictly ascending order,
and the outputs agree in type as those of a choice do. Interpolations can only blend numbers, colors
and arrays of a fixed number of numbers.
-/

namespace MapStyle.Compile

/-- Checks that the operands are an even number and at least four. -/
def expectPairs (s : Site) (args : List Operand) : Compiled Unit :=
  if args.length < 4 then s.fail (.tooFewOperands 4 args.length)
  else if args.length % 2 == 1 then s.fail .evenExpected
  else return ()

/-- The label at a position, which has to exceed the one before it. -/
def stopLabel (name : String) (s : Site) (position : Nat) (previous : Option Float) (raw : Json) :
    Compiled Float :=
  match raw.number? with
  | none => s.failAt [position] (.stopLabel name)
  | some x => if previous.any (x ≤ ·) then s.failAt [position] (.stopOrder name) else return x

/-- Labels and outputs from a position on, and the type of the outputs. -/
def stops (name : String) (s : Site) :
    Nat → Option Float → Option Ty → List Operand → Compiled (List (Float × Expr) × Option Ty)
  | i, previous, ty, l :: o :: rest => do
    let x ← stopLabel name s i previous l.raw
    let e ← o.compileAt s (i + 1) ty
    let (more, ty) ← stops name s (i + 2) (some x) (some (ty.getD e.type)) rest
    return ((x, e) :: more, ty)
  | _, _, ty, _ => return ([], ty)

/-- A step. Its first output has no label and counts from negative infinity. -/
def step (s : Site) (args : List Operand) : Compiled Expr := do
  expectPairs s args
  match args with
  | input :: first :: rest =>
    let input ← input.compileAt s 1 (some .number)
    let first ← first.compileAt s 2 s.declared
    let ty := s.declared.getD first.type
    let (more, _) ← stops "step" s 3 (some (-Number.infinity)) (some ty) rest
    return .step ty input ((-Number.infinity, first) :: more)
  | _ => s.fail .missingOperand

/-- The control values of an easing curve: four numbers between zero and one. -/
def control? (items : List Json) : Option Interpolation :=
  let inRange (x : Float) : Bool := 0 ≤ x && x ≤ 1
  match items.map Json.number? with
  | [some x₁, some y₁, some x₂, some y₂] =>
    if inRange x₁ && inRange y₁ && inRange x₂ && inRange y₂ then some (.cubicBezier x₁ y₁ x₂ y₂)
    else none
  | _ => none

def interpolation (s : Site) (raw : Json) : Compiled Interpolation :=
  match raw with
  | .array (head :: rest) =>
    match head with
    | .string "linear" => return .linear
    | .string "exponential" =>
      match rest.head?.bind Json.number? with
      | some base => return .exponential base
      | none => s.failAt [1, 1] .exponentialBase
    | .string "cubic-bezier" =>
      match control? rest with
      | some kind => return kind
      | none => s.failAt [1] .bezierControl
    | .string name => s.failAt [1, 0] (.unknownInterpolation name)
    | other => s.failAt [1, 0] (.unknownInterpolation other.text)
  | _ => s.failAt [1] .interpolationMissing

def isInterpolatable : Ty → Bool
  | .array item (some _) => Ty.number.accepts item
  | .array _ none => false
  | ty => Ty.number.accepts ty || Ty.color.accepts ty

def colorSpace (name : String) : ColorSpace :=
  if name == "interpolate-hcl" then .hcl
  else if name == "interpolate-lab" then .lab
  else .rgb

/-- An interpolation. In a color space of its own it has color outputs. -/
def interpolate (name : String) (s : Site) (args : List Operand) : Compiled Expr :=
  match args with
  | [] => s.failAt [1] .interpolationMissing
  | kind :: operands => do
    let kind ← interpolation s kind.raw
    expectPairs s args
    match operands with
    | input :: rest =>
      let input ← input.compileAt s 2 (some .number)
      let space := colorSpace name
      let declared := if space == .rgb then s.declared else some .color
      let (stops, ty) ← stops name s 3 none declared rest
      let ty := ty.getD .value
      if isInterpolatable ty then return .interpolate ty space kind input stops
      else s.fail (.notInterpolatable ty)
    | [] => s.fail .missingOperand

end MapStyle.Compile
