/-!
# The exact value of a double

Text, remainders and integer parts of numbers have to be exact, and none of them can be had
from floating point operations alone. A finite double is a whole number of units `2 ^ exponent`;
once it is seen that way, everything this library needs from it is arithmetic on `Nat` and `Int`.

`Binary.ofFloat?` reads that form off the bits; infinities and NaN have none.
-/

namespace MapStyle.Number

/-- A sign, a number of units and the power of two that is the unit. -/
structure Binary where
  negative : Bool
  mantissa : Nat
  exponent : Int
  deriving Repr, DecidableEq

namespace Binary

/-- The leading bit of the mantissa of a normal double, which its bits leave out. -/
def hiddenBit : Nat := 1 <<< 52

def exponentField (x : Float) : Nat :=
  x.toBits.toNat / hiddenBit % 2048

def fractionField (x : Float) : Nat :=
  x.toBits.toNat % hiddenBit

/-- The exact value of a finite double. Subnormal numbers share the unit of the smallest normal
ones and have no hidden bit. -/
def ofFloat? (x : Float) : Option Binary :=
  let negative := decide (1 <<< 63 ≤ x.toBits.toNat)
  match exponentField x with
  | 2047 => none
  | 0 => some ⟨negative, fractionField x, -1074⟩
  | e => some ⟨negative, fractionField x + hiddenBit, (e : Int) - 1075⟩

/-- The magnitude as a fraction: units over the part of the unit below one. -/
def numerator (b : Binary) : Nat :=
  b.mantissa <<< b.exponent.toNat

/-- The denominator that goes with `numerator`, a power of two. -/
def denominator (b : Binary) : Nat :=
  1 <<< (-b.exponent).toNat

theorem denominator_pos (b : Binary) : 0 < b.denominator := by
  rw [denominator, Nat.one_shiftLeft]
  exact Nat.two_pow_pos _

/-- The value without its fractional part, rounded toward zero. -/
def wholePart (b : Binary) : Int :=
  let n : Int := (b.numerator / b.denominator : Nat)
  if b.negative then -n else n

/-- Whether there is no fractional part. -/
def isWhole (b : Binary) : Bool :=
  b.numerator % b.denominator == 0

end Binary

end MapStyle.Number
