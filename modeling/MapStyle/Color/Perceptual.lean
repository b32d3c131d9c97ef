import MapStyle.Color.Basic
import MapStyle.Number.Order
import MapStyle.Number.Whole

/-!
# Blending colors by appearance

Two spaces in which equal steps look equal: CIELAB with its lightness and two opponent axes, and
the same space in polar form, with hue, chroma and lightness. The reference white is D50 and the
primaries of sRGB are adapted to it.

A gray has no hue. Blending it in polar form keeps the hue of the other color, and black and white
take over the other color's chroma as well.
-/

namespace MapStyle.Color

open MapStyle.Number (pi)

/-- Lightness, the green to red axis, the blue to yellow axis, and alpha. -/
structure Lab where
  l : Float
  a : Float
  b : Float
  alpha : Float

/-- Hue in degrees, absent for a gray, chroma, lightness and alpha. -/
structure Hcl where
  h : Option Float
  c : Float
  l : Float
  alpha : Float

namespace Lab

/-- The reference white. -/
def whiteX : Float := 0.96422

def whiteZ : Float := 0.82521

/-- Where the cube root gives way to a line, in the scale of the root. -/
def knee : Float := 6.0 / 29.0

def kneeSlope : Float := 3.0 * knee * knee

def kneeOffset : Float := 4.0 / 29.0

def compress (t : Float) : Float :=
  if knee * knee * knee < t then t.cbrt else t / kneeSlope + kneeOffset

def expand (t : Float) : Float :=
  if knee < t then t * t * t else kneeSlope * (t - kneeOffset)

/-- A linear channel with the transfer curve of sRGB applied. -/
def encodeGamma (x : Float) : Float :=
  if x ≤ 0.0031308 then 12.92 * x else 1.055 * x.pow (1.0 / 2.4) - 0.055

/-- The linear value of a channel of sRGB. -/
def decodeGamma (x : Float) : Float :=
  if x ≤ 0.04045 then x / 12.92 else ((x + 0.055) / 1.055).pow 2.4

def ofColor (color : Color) : Lab :=
  let r := decodeGamma color.r
  let g := decodeGamma color.g
  let b := decodeGamma color.b
  let y := compress (0.2225045 * r + 0.7168786 * g + 0.0606169 * b)
  let (x, z) :=
    if r == g && g == b then (y, y)
    else
      (compress ((0.4360747 * r + 0.3850649 * g + 0.1430804 * b) / whiteX),
       compress ((0.0139322 * r + 0.0971045 * g + 0.7141733 * b) / whiteZ))
  ⟨116 * y - 16, 500 * (x - y), 200 * (y - z), color.a⟩

def toColor (lab : Lab) : Color :=
  let y := (lab.l + 16) / 116
  let x := if lab.a.isNaN then y else y + lab.a / 500
  let z := if lab.b.isNaN then y else y - lab.b / 200
  let y := expand y
  let x := whiteX * expand x
  let z := whiteZ * expand z
  let channel (v : Float) : Float := Number.clamp 0 1 (encodeGamma v)
  ⟨channel (3.1338561 * x - 1.6168667 * y - 0.4906146 * z),
   channel (-0.9787684 * x + 1.9161415 * y + 0.0334540 * z),
   channel (0.0719453 * x - 0.2289914 * y + 1.4052427 * z),
   lab.alpha⟩

def mix (first second : Color) (t : Float) : Color :=
  let x := ofColor first
  let y := ofColor second
  toColor ⟨blend x.l y.l t, blend x.a y.a t, blend x.b y.b t, blend x.alpha y.alpha t⟩

end Lab

namespace Hcl

def ofColor (color : Color) : Hcl :=
  let lab := Lab.ofColor color
  let c := (lab.a * lab.a + lab.b * lab.b).sqrt
  let h := lab.b.atan2 lab.a * (180 / pi)
  let h := if h < 0 then h + 360 else h
  ⟨if c < 1e-9 || h.isNaN then none else some h, c, lab.l, lab.alpha⟩

def toColor (hcl : Hcl) : Color :=
  let h := match hcl.h with
    | some h => if h.isNaN then 0 else h * (pi / 180)
    | none => 0
  Lab.toColor ⟨hcl.l, h.cos * hcl.c, h.sin * hcl.c, hcl.alpha⟩

/-- The hue at `t` on the shorter way around the circle. -/
def mixHue (a b t : Float) : Float :=
  let d := b - a
  let d :=
    if a < b && 180 < d then d - 360
    else if b < a && 180 < a - b then d + 360
    else d
  a + t * d

def isExtreme (x : Hcl) : Bool :=
  x.l == 0 || x.l == 100

/-- The color at `t` on the way between two colors around the hue circle. -/
def mix (first second : Color) (t : Float) : Color :=
  let x := ofColor first
  let y := ofColor second
  let chroma := blend x.c y.c t
  let (hue, chroma) : Option Float × Float :=
    match x.h, y.h with
    | some h, some k => (some (mixHue h k t), chroma)
    | some h, none => (some h, if y.isExtreme then x.c else chroma)
    | none, some k => (some k, if x.isExtreme then y.c else chroma)
    | none, none => (none, chroma)
  toColor ⟨hue, chroma, blend x.l y.l t, blend x.alpha y.alpha t⟩

end Hcl

end MapStyle.Color
