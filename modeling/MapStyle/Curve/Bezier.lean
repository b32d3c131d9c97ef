import MapStyle.Number.Constant

/-!
# Easing curves

A cubic curve from the origin to the point (1, 1) that two control points bend. As a function of its
first coordinate it is found by solving for the parameter: Newton's method first, and bisection
where the slope is too flat for it or it has not come close enough after eight steps.

The curves are generic in the numbers, as their laws are stated for exact arithmetic.
-/

namespace MapStyle.Curve

/-- A cubic polynomial without a constant term: `a t³ + b t² + c t`. -/
structure Cubic (α : Type) where
  a : α
  b : α
  c : α
  deriving Repr

/-- The two coordinates of a curve as polynomials in its parameter. -/
structure Bezier (α : Type) where
  x : Cubic α
  y : Cubic α
  deriving Repr

variable {α : Type} [Add α] [Sub α] [Mul α] [Div α] [Neg α] [Zero α] [One α] [NatCast α]
  [OfScientific α] [LT α] [DecidableLT α]

namespace Cubic

/-- The polynomial that runs from zero to one, pulled by two control values. -/
def ofControl (p q : α) : Cubic α :=
  let c := ((3 : Nat) : α) * p
  let b := ((3 : Nat) : α) * (q - p) - c
  ⟨1 - c - b, b, c⟩

def value (f : Cubic α) (t : α) : α :=
  ((f.a * t + f.b) * t + f.c) * t

def slope (f : Cubic α) (t : α) : α :=
  (((3 : Nat) : α) * f.a * t + ((2 : Nat) : α) * f.b) * t + f.c

/-- Whether `x` is closer to zero than `epsilon`. -/
def isSmall (epsilon x : α) : Bool :=
  decide (-epsilon < x) && decide (x < epsilon)

/-- Newton's method for `f t = x` from `t`, for a number of steps. It gives up where `f` is flat. -/
def newton? (f : Cubic α) (x epsilon : α) : Nat → α → Option α
  | 0, _ => none
  | steps + 1, t =>
    let miss := f.value t - x
    if isSmall epsilon miss then some t
    else
      let d := f.slope t
      if isSmall 1e-6 d then none else newton? f x epsilon steps (t - miss / d)

/-- Bisection for `f t = x` between `lo` and `hi`, starting at `t`, for a number of steps. -/
def bisect (f : Cubic α) (x epsilon : α) : Nat → (lo hi t : α) → α
  | 0, _, _, t => t
  | steps + 1, lo, hi, t =>
    let here := f.value t
    if isSmall epsilon (here - x) then t
    else if here < x then bisect f x epsilon steps t hi ((hi - t) * 0.5 + t)
    else bisect f x epsilon steps lo t ((t - lo) * 0.5 + lo)

/-- The parameter at which `f` is `x`; inputs outside zero to one are moved to its ends. -/
def invert (f : Cubic α) (x epsilon : α) : α :=
  if x < 0 then 0
  else if 1 < x then 1
  else
    match f.newton? x epsilon 8 x with
    | some t => t
    | none => f.bisect x epsilon 20 0 1 x

end Cubic

namespace Bezier

/-- The curve with the control points `(x₁, y₁)` and `(x₂, y₂)`. -/
def ofControl (x₁ y₁ x₂ y₂ : α) : Bezier α :=
  ⟨.ofControl x₁ x₂, .ofControl y₁ y₂⟩

def solve (curve : Bezier α) (x epsilon : α) : α :=
  curve.y.value (curve.x.invert x epsilon)

end Bezier

end MapStyle.Curve
