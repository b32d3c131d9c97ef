import MapStyle.Color.Perceptual
import MapStyle.Curve.Interpolation
import MapStyle.Curve.Stops
import MapStyle.EvalError

/-!
# Outputs of curves

A step has the output of the stop before its input; an interpolation blends the outputs of the two
stops around it. A curve of one stop does not look at its input, and an input that is not a number
falls nowhere.
-/

namespace MapStyle.Semantics

/-- The output of the last stop at or before the input. -/
def step (input : Outcome) (stops : List (Float × Outcome)) : Outcome :=
  match stops with
  | [(_, output)] => output
  | stops => do
    match Curve.locate stops (← input.number) with
    | .stop output => output
    | .between _ _ output _ => output
    | .unordered => throw .inputNotANumber
    | .nowhere => throw .missingOperand

/-- The blend of two lists of numbers, item by item. -/
def blendItems (t : Float) : List Value → List Value → Except EvalError (List Value)
  | x :: xs, y :: ys =>
    match x, y with
    | .number x, .number y => return .number (blend x y t) :: (← blendItems t xs ys)
    | _, _ => throw (.notInterpolatable .notNumbers)
  | _, _ => return []

/-- The color at `t` between two colors in a color space. -/
def blendColors (space : ColorSpace) (t : Float) (x y : Color) : Color :=
  match space with
  | .rgb => Rgba.mix x y t
  | .hcl => Color.Hcl.mix x y t
  | .lab => Color.Lab.mix x y t

/-- The blend of two outputs of a curve of type `ty`. -/
def blendOutputs (ty : Ty) (space : ColorSpace) (t : Float) (first second : Outcome) : Outcome :=
  match ty with
  | .color => do
    let x ← first.color
    let y ← second.color
    return .color (blendColors space t x y)
  | .array _ _ => do
    let x ← first
    let y ← second
    match x, y with
    | .array xs, .array ys =>
      if xs.length != ys.length then throw (.arrayLengthMismatch xs.length ys.length)
      return .array (← blendItems t xs ys)
    | _, _ => throw (.notInterpolatable .notArrays)
  | _ => do
    let x ← first.number
    let y ← second.number
    return .number (blend x y t)

/-- The output at the input, blended between stops. -/
def interpolate (ty : Ty) (space : ColorSpace) (kind : Interpolation) (input : Outcome)
    (stops : List (Float × Outcome)) : Outcome :=
  match stops with
  | [(_, output)] => output
  | stops => do
    let x ← input.number
    match Curve.locate stops x with
    | .stop output => output
    | .between lower upper first second =>
      blendOutputs ty space (kind.factor x lower upper) first second
    | .unordered => throw .inputNotANumber
    | .nowhere => throw .missingOperand

end MapStyle.Semantics
