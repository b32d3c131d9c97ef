import MapStyle.Curve.Bezier

/-!
# How far between two stops

The factor by which an input between two stops blends their outputs. Factors are generic in the
numbers, as their laws are stated for exact arithmetic; the parameters of a document are doubles,
which `factorIn` reads as such numbers.
-/

namespace MapStyle

inductive Interpolation where
  | linear
  | exponential (base : Float)
  | cubicBezier (x₁ y₁ x₂ y₂ : Float)
  deriving Repr

inductive ColorSpace where
  | rgb
  | hcl
  | lab
  deriving DecidableEq, Repr

namespace Interpolation

section

variable {α : Type} [Sub α] [Div α] [Zero α] [BEq α]

/-- The share of the way from `lower` to `upper` that lies before `input`. -/
def linearFactor (input lower upper : α) : α :=
  if upper - lower == 0 then 0 else (input - lower) / (upper - lower)

/-- The share when progress grows by the factor `base` for every unit of the input. -/
def exponentialFactor [One α] [HPow α α α] (base input lower upper : α) : α :=
  if base == 1 then linearFactor input lower upper
  else if upper - lower == 0 then 0
  else (base ^ (input - lower) - 1) / (base ^ (upper - lower) - 1)

variable [Add α] [Mul α] [Neg α] [One α] [NatCast α] [OfScientific α] [LT α] [DecidableLT α]
  [HPow α α α]

/-- The factor of an input between two labels, with the parameters read by `read`. -/
def factorIn (read : Float → α) : Interpolation → (input lower upper : α) → α
  | .linear, input, lower, upper => linearFactor input lower upper
  | .exponential base, input, lower, upper => exponentialFactor (read base) input lower upper
  | .cubicBezier x₁ y₁ x₂ y₂, input, lower, upper =>
    (Curve.Bezier.ofControl (read x₁) (read y₁) (read x₂) (read y₂)).solve
      (linearFactor input lower upper) 1e-6

end

def factor (kind : Interpolation) (input lower upper : Float) : Float :=
  kind.factorIn id input lower upper

end Interpolation

end MapStyle
