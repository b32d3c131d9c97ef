import MapStyle.Color.Basic
import MapStyle.Color.Names
import MapStyle.Number.Order
import MapStyle.Number.Read
import MapStyle.Text.Blank

/-!
# Colors written as in a style sheet

`Color.parse?` reads hexadecimal digits behind a number sign, the functions `rgb`, `rgba`, `hsl`
and `hsla`, and the color keywords. Letters may have either case and blanks may surround the whole.
The operands of a function are separated by commas, or else by blanks and slashes; channels and
alpha outside their range are moved to its nearest end.
-/

namespace MapStyle.Color

/-- The value of a hexadecimal digit in lower case. -/
def hexDigit? (c : Char) : Option Nat :=
  if c.isDigit then some (c.toNat - '0'.toNat)
  else if 'a' ≤ c && c ≤ 'f' then some (c.toNat - 'a'.toNat + 10)
  else none

/-- Three, four, six or eight digits; a single digit stands for the byte that repeats it. -/
def ofHex? (cs : List Char) : Option Color := do
  let byte (n : Nat) : Float := Float.ofNat n
  match ← cs.mapM hexDigit? with
  | [r, g, b] => some (ofBytes (byte (r * 17)) (byte (g * 17)) (byte (b * 17)) 1)
  | [r, g, b, a] =>
    some (ofBytes (byte (r * 17)) (byte (g * 17)) (byte (b * 17)) (byte (a * 17) / 255))
  | [r₁, r₀, g₁, g₀, b₁, b₀] =>
    some (ofBytes (byte (r₁ * 16 + r₀)) (byte (g₁ * 16 + g₀)) (byte (b₁ * 16 + b₀)) 1)
  | [r₁, r₀, g₁, g₀, b₁, b₀, a₁, a₀] =>
    some (ofBytes (byte (r₁ * 16 + r₀)) (byte (g₁ * 16 + g₀)) (byte (b₁ * 16 + b₀))
      (byte (a₁ * 16 + a₀) / 255))
  | _ => none

def unit (x : Float) : Float := Number.clamp 0 1 x

def beforePercent? (cs : List Char) : Option (List Char) :=
  match cs.reverse with
  | '%' :: rest => some rest.reverse
  | _ => none

def percentage? (cs : List Char) : Option Float := do
  let x ← Number.read? (← beforePercent? cs)
  return unit (x / 100)

/-- A channel of `rgb`: a percentage or a number up to 255. -/
def channel? (cs : List Char) : Option Float :=
  match beforePercent? cs with
  | some _ => percentage? cs
  | none => (Number.read? cs).map fun x => unit (x / 255)

/-- An alpha: a percentage or a number up to one. -/
def alpha? (cs : List Char) : Option Float :=
  match beforePercent? cs with
  | some _ => percentage? cs
  | none => (Number.read? cs).map unit

/-- Drops every `deg` at the end of reversed characters. -/
def dropDegrees : List Char → List Char
  | 'g' :: 'e' :: 'd' :: rest => dropDegrees rest
  | cs => cs

/-- A hue in degrees, with or without the unit. -/
def hue? (cs : List Char) : Option Float :=
  Number.read? (dropDegrees cs.reverse).reverse

/-- Red, green and blue of a hue in degrees, a saturation and a lightness. -/
def ofHsl (h s l a : Float) : Color :=
  let h := Number.positiveRemainder h 360 / 360
  let m₂ := if l ≤ 0.5 then l * (s + 1) else l + s - l * s
  let m₁ := l * 2 - m₂
  let channel (h : Float) : Float :=
    let h := if h < 0 then h + 1 else if 1 < h then h - 1 else h
    if h * 6 < 1 then m₁ + (m₂ - m₁) * h * 6
    else if h * 2 < 1 then m₂
    else if h * 3 < 2 then m₁ + (m₂ - m₁) * (2 / 3 - h) * 6
    else m₁
  ⟨channel (h + 1 / 3), channel h, channel (h - 1 / 3), a⟩

/-- The name before the parenthesis and the trimmed text inside, of a text that is one call. -/
def call? (cs : List Char) : Option (String × List Char) :=
  match cs.dropWhile (· != '('), (cs.dropWhile (· != '(')).drop 1 |>.dropWhile (· != ')') with
  | '(' :: inside, [')'] =>
    some (String.ofList (cs.takeWhile (· != '(')), Text.trimChars (inside.takeWhile (· != ')')))
  | _, _ => none

def operands (body : List Char) : List (List Char) :=
  if body.contains ',' then (Text.splitChars (· == ',') body).map Text.trimChars
  else (Text.splitChars (fun c => Text.isBlank c || c == '/') body).filter (!·.isEmpty)

def ofCall? (cs : List Char) : Option Color := do
  let (name, body) ← call? cs
  let (x, y, z, a) ←
    match operands body with
    | [x, y, z] => some (x, y, z, 1.0)
    | [x, y, z, a] => (alpha? a).map fun a => (x, y, z, a)
    | _ => none
  if name == "rgb" || name == "rgba" then
    return ⟨← channel? x, ← channel? y, ← channel? z, a⟩
  else if name == "hsl" || name == "hsla" then
    return ofHsl (← hue? x) (← percentage? y) (← percentage? z) a
  else none

def ofName? (name : String) : Option Color :=
  if name == "transparent" then some Rgba.transparent
  else (named? name).map fun (r, g, b) => ofBytes (.ofNat r) (.ofNat g) (.ofNat b) 1

def parse? (s : String) : Option Color :=
  let cs := (Text.trimChars s.toList).map Char.toLower
  match cs with
  | '#' :: hex => ofHex? hex
  | _ =>
    match ofCall? cs with
    | some c => some c
    | none => ofName? (String.ofList cs)

end MapStyle.Color
