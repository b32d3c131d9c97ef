import MapStyle.Number.Binary
import MapStyle.Number.Constant

/-!
# Integers among the doubles

Which doubles are integers, the integer a double truncates to, and the remainder of one double
by another. All three are decided on the exact value, so they hold of numbers of any size.
-/

namespace MapStyle.Number

/-- Whether `x` is an integer; infinities and NaN are not. -/
def isWhole (x : Float) : Bool :=
  match Binary.ofFloat? x with
  | some b => b.isWhole
  | none => false

/-- The integer `x` truncates to, zero for infinities and NaN. -/
def wholePart (x : Float) : Int :=
  match Binary.ofFloat? x with
  | some b => b.wholePart
  | none => 0

/-- The largest magnitude up to which doubles stand for one integer each. -/
def largestSafe : Nat := 9007199254740991

/-- The integer that `x` is, when it is one of at most `largestSafe` in magnitude. -/
def safeInteger? (x : Float) : Option Int :=
  if isWhole x && (wholePart x).natAbs ≤ largestSafe then some (wholePart x) else none

/-- The double nearest to a number of units `2 ^ e`. -/
def ofUnits (n : Nat) (e : Int) : Float :=
  .ofModel (.pack (.normalize .binary64 n e .positive))

/-- The remainder of `x` by `y` with the sign of `x`, without rounding. There is none by zero,
none of an infinity, and `x` itself is the remainder by an infinity. -/
def remainder (x y : Float) : Float :=
  match Binary.ofFloat? x, Binary.ofFloat? y with
  | some a, some b =>
    if b.mantissa == 0 then nan
    else
      let unit := min a.exponent b.exponent
      let units (c : Binary) : Nat := c.mantissa <<< (c.exponent - unit).toNat
      let r := ofUnits (units a % units b) unit
      if a.negative then -r else r
  | some _, none => if y.isInf then x else nan
  | none, _ => nan

/-- The remainder of `x` by a positive `y`, moved into `0..y`. -/
def positiveRemainder (x y : Float) : Float :=
  let r := remainder x y
  if r < 0 then r + y.abs else r

end MapStyle.Number
