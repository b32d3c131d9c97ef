import MapStyle.Number.Decimal
import MapStyle.Number.Whole

/-!
# Numbers as text

Every text of a number shows the fewest digits that read back. What is left to decide is how the
digits are laid out, and `Layout` holds those decisions in one value: which exponents are written
with a positional point, what follows an integer, and which way an exact tie between two shortest
forms goes.

Messages and the text of a number in an expression never use an exponent (`Layout.plain`, `text`);
JSON text does outside a range (`Layout.json`).
-/

namespace MapStyle.Number

/-- How a decimal is laid out. -/
structure Layout where
  /-- The exponents of the leading digit that are written without an exponent; all when absent. -/
  positional : Option (Int × Int)
  /-- What follows the digits of an integer in positional form. -/
  afterWhole : String
  tie : Tie

namespace Layout

/-- Never an exponent, and integers bare. -/
def plain : Layout := ⟨none, "", .upward⟩

/-- Exponents from -5 to 15 are positional, and an integer keeps a fractional zero. -/
def json : Layout := ⟨some (-5, 15), ".0", .toEven⟩

def positionalText (layout : Layout) (digits : List Char) (scale : Int) : List Char :=
  let point := (digits.length : Int) + scale
  if 0 ≤ scale then
    digits ++ List.replicate scale.toNat '0' ++ layout.afterWhole.toList
  else if point ≤ 0 then
    '0' :: '.' :: List.replicate (-point).toNat '0' ++ digits
  else
    digits.take point.toNat ++ '.' :: digits.drop point.toNat

/-- One digit, the others behind a point, and a signed exponent. -/
def exponentText (digits : List Char) (exponent : Int) : List Char :=
  let fraction := digits.drop 1
  digits.take 1 ++ (if fraction.isEmpty then [] else '.' :: fraction) ++
    'e' :: (if exponent < 0 then '-' else '+') :: Nat.toDigits 10 exponent.natAbs

/-- The text of a decimal magnitude. -/
def decimalText (layout : Layout) (d : Decimal) : List Char :=
  let digits := Nat.toDigits 10 d.digits
  let exponent := (digits.length : Int) + d.scale - 1
  match layout.positional with
  | none => layout.positionalText digits d.scale
  | some (least, greatest) =>
    if least ≤ exponent && exponent ≤ greatest then layout.positionalText digits d.scale
    else exponentText digits exponent

def finiteText? (layout : Layout) (x : Float) : Option String := do
  let b ← Binary.ofFloat? x
  let d ← Decimal.shortest? layout.tie x
  let magnitude := layout.decimalText d
  return String.ofList (if b.negative then '-' :: magnitude else magnitude)

end Layout

/-- Magnitudes below this are shown as integers when they are integers. -/
def wholeLimit : Float := 1e15

def showsWhole (x : Float) : Bool :=
  isWhole x && x.abs < wholeLimit

/-- A number as a style author writes it: no exponent, integers without a fraction, and no sign
on zero. -/
def text (x : Float) : String :=
  if showsWhole x then toString (wholePart x)
  else
    match Layout.plain.finiteText? x with
    | some s => s
    | none => if x.isNaN then "NaN" else if 0 < x then "Infinity" else "-Infinity"

/-- A number in positional form that keeps the sign of zero. -/
def signedText (x : Float) : String :=
  match Layout.plain.finiteText? x with
  | some s => s
  | none => if x.isNaN then "NaN" else if 0 < x then "inf" else "-inf"

end MapStyle.Number
