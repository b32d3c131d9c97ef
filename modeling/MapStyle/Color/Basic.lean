import MapStyle.Number.Text

/-!
# Colors

Red, green, blue and alpha between zero and one, not premultiplied. Channels are generic in the
number they are made of; the program uses doubles, and blending is the one operation whose laws are
stated for exact numbers.

Operands of the color operators count their channels up to 255 and have to be in range, which is
what `Color.fault?` decides.
-/

namespace MapStyle

structure Rgba (α : Type) where
  r : α
  g : α
  b : α
  a : α
  deriving Repr

abbrev Color := Rgba Float

/-- The point at `t` on the way from `a` to `b`. -/
def blend {α : Type} [Add α] [Sub α] [Mul α] [One α] (a b t : α) : α :=
  a * (1 - t) + b * t

namespace Rgba

section

variable {α : Type} [Add α] [Sub α] [Mul α] [Div α] [Zero α] [One α] [BEq α]

/-- Black that cannot be seen. -/
def transparent : Rgba α := ⟨0, 0, 0, 0⟩

/-- The color at `t` on the way between two colors. Channels are weighed by their alpha, so that a
color that cannot be seen adds no hue. -/
def mix (x y : Rgba α) (t : α) : Rgba α :=
  let alpha := blend x.a y.a t
  if alpha == 0 then transparent
  else
    let channel (p q : α) : α := blend (p * x.a) (q * y.a) t / alpha
    ⟨channel x.r y.r, channel x.g y.g, channel x.b y.b, alpha⟩

end

end Rgba

namespace Color

/-- A color from channels up to 255 and an alpha up to one. -/
def ofBytes (r g b a : Float) : Color :=
  ⟨r / 255, g / 255, b / 255, a⟩

/-- The channels scaled to 255, and alpha as it is. -/
def toBytes (c : Color) : List Float :=
  [c.r * 255, c.g * 255, c.b * 255, c.a]

/-- The text of a color, with channels rounded to integers. -/
def text (c : Color) : String :=
  let channel (x : Float) : String := Number.signedText (x * 255).round
  "rgba(" ++ ",".intercalate [channel c.r, channel c.g, channel c.b, Number.text c.a] ++ ")"

inductive Fault where
  /-- A channel is not between 0 and 255; the operands. -/
  | channel (operands : List Float)
  /-- Alpha is not between 0 and 1; the operands. -/
  | alpha (operands : List Float)

namespace Fault

def message : Fault → String
  | .channel operands => "Invalid rgba value [" ++ list operands ++
      "]: 'r', 'g', and 'b' must be between 0 and 255."
  | .alpha operands => "Invalid rgba value [" ++ list operands ++
      "]: 'a' must be between 0 and 1."
where
  list (operands : List Float) : String := ", ".intercalate (operands.map Number.text)

end Fault

/-- Whether `x` lies between zero and `high`; NaN does not. -/
def inRange (high x : Float) : Bool :=
  0 ≤ x && x ≤ high

/-- The first fault of channels up to 255 and an alpha up to one, if any. -/
def fault? (r g b : Float) (a : Option Float) : Option Fault :=
  let operands := [r, g, b] ++ a.toList
  if !(inRange 255 r && inRange 255 g && inRange 255 b) then some (.channel operands)
  else if a.all (inRange 1) then none
  else some (.alpha operands)

end Color

end MapStyle
