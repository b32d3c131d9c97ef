import MapStyle.Number.Binary

/-!
# Decimal digits of a double

Two ways of writing a double in decimal digits, both computed on the exact value.

`shortest` gives the fewest digits that read back as the same double, and among those the nearest.
The numbers that read back as a double fill an interval around it, which contains its two ends
exactly when the mantissa is even. For each count of digits there is a grid of decimals, and if any
point of the grid falls into the interval one of the two neighbours of the double does; so it is
enough to try those two, from one digit up. Seventeen digits always suffice.

`rounded` gives a fixed number of digits, rounding the exact value and a half to the even digit.
-/

namespace MapStyle.Number

/-- The number `digits * 10 ^ scale`. -/
structure Decimal where
  digits : Nat
  scale : Int
  deriving Repr, DecidableEq

inductive Tie where
  | upward
  | toEven
  deriving Repr, DecidableEq

namespace Decimal

def digitCount (n : Nat) : Nat :=
  (Nat.toDigits 10 n).length

/-- Moves zeros at the end of the digits into the scale. The fuel bounds the number of zeros. -/
def stripZeros : Nat → Decimal → Decimal
  | fuel + 1, d =>
    if d.digits % 10 == 0 && d.digits != 0 then stripZeros fuel ⟨d.digits / 10, d.scale + 1⟩ else d
  | 0, d => d

/-- The same number with no zero at the end of its digits. -/
def trimmed (d : Decimal) : Decimal :=
  stripZeros (digitCount d.digits) d

def tenTo (n : Nat) : Nat := Nat.pow 10 n

/-- The exponent of the leading digit of the positive fraction `num / den`. -/
def leadingExponent (num den : Nat) : Int :=
  if den ≤ num then (digitCount (num / den) : Int) - 1
  else
    let n := digitCount (den / num)
    if num * tenTo (n - 1) == den then -((n : Int) - 1) else -(n : Int)

/-- The two parts of `10 ^ scale` as a fraction. -/
def powerOfTen (scale : Int) : Nat × Nat :=
  (tenTo scale.toNat, tenTo (-scale).toNat)

/-- The decimals with exactly `n` digits nearest to `num / den` from below and above, when they lie
between `low / den` and `high / den`. The bounds themselves count when `closed` holds. -/
def onGrid (tie : Tie) (num low high den : Nat) (closed : Bool) (lead : Int) (n : Nat) :
    Option Decimal :=
  let scale := lead - (n : Int) + 1
  let (up, down) := powerOfTen scale
  let below := num * down / (den * up)
  let within (d : Nat) : Bool :=
    let p := d * den * up
    if closed then low * down ≤ p && p ≤ high * down else low * down < p && p < high * down
  match within below, within (below + 1) with
  | true, false => some ⟨below, scale⟩
  | false, true => some ⟨below + 1, scale⟩
  | false, false => none
  | true, true =>
    let twice := 2 * num * down
    let middle := (2 * below + 1) * den * up
    let pickAbove :=
      if twice == middle then
        match tie with
        | .upward => true
        | .toEven => below % 2 == 1
      else decide (middle < twice)
    some ⟨if pickAbove then below + 1 else below, scale⟩

/-- The shortest decimal that reads back as the magnitude of `x`, for a finite `x`. -/
def shortest? (tie : Tie) (x : Float) : Option Decimal := do
  let b ← Binary.ofFloat? x
  if b.mantissa == 0 then return ⟨0, 0⟩
  -- quarter units, so that both ends of the interval are whole
  let num := 4 * b.numerator
  let unit := num / b.mantissa
  let den := 4 * b.denominator
  let narrow := Binary.fractionField x == 0 && 1 < Binary.exponentField x
  let low := num - (if narrow then unit / 4 else unit / 2)
  let high := num + unit / 2
  let lead := leadingExponent num den
  let found := (List.range 17).findSome? fun n =>
    onGrid tie num low high den (b.mantissa % 2 == 0) lead (n + 1)
  return (← found).trimmed

/-- The magnitude of a finite `x` rounded to `n` digits, a half to the even digit. -/
def rounded? (n : Nat) (x : Float) : Option Decimal := do
  let b ← Binary.ofFloat? x
  if b.mantissa == 0 then return ⟨0, 0⟩
  let scale := leadingExponent b.numerator b.denominator - (n : Int) + 1
  let (up, down) := powerOfTen scale
  let num := b.numerator * down
  let den := b.denominator * up
  let below := num / den
  let twice := 2 * (num % den)
  let above := decide (den < twice) || (twice == den && below % 2 == 1)
  return (⟨if above then below + 1 else below, scale⟩ : Decimal).trimmed

/-- The double nearest to `d`. Scales far outside the range of doubles are settled first, so that
no power of ten grows past what the answer needs. -/
def toFloat (d : Decimal) : Float :=
  let magnitude := (digitCount d.digits : Int) + d.scale
  if d.digits == 0 || magnitude < -330 then 0
  else if 310 < magnitude then Float.ofBits 0x7FF0000000000000
  else Float.ofScientific d.digits (d.scale < 0) d.scale.natAbs

end Decimal

/-- `x` rounded to `n` significant decimal digits. -/
def roundSignificant (n : Nat) (x : Float) : Float :=
  match Decimal.rounded? n x with
  | some d => if x < 0 then -d.toFloat else d.toFloat
  | none => x

end MapStyle.Number
