/-!
# The smaller and the larger of two numbers

The comparisons here are stated over any type with an order and a test for equality, so that one
definition serves the doubles the program computes with and the exact numbers its theorems are
about. The only thing that sets doubles apart is NaN, the value that differs from itself: it is
never chosen while there is a number to choose.
-/

namespace MapStyle.Number

variable {α : Type} [LT α] [DecidableLT α] [BEq α]

/-- The smaller of two numbers, the first of them when neither is smaller. -/
def lesser (a b : α) : α :=
  if b < a || !(a == a) then b else a

/-- The larger of two numbers, the first of them when neither is larger. -/
def greater (a b : α) : α :=
  if a < b || !(a == a) then b else a

omit [BEq α] in
/-- The nearest number to `x` between `lo` and `hi`; NaN stays as it is. -/
def clamp (lo hi x : α) : α :=
  if x < lo then lo else if hi < x then hi else x

end MapStyle.Number
