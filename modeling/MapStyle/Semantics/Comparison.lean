import MapStyle.EvalError

/-!
# Comparing two values

Equality asks whether scalars are the same. An order exists between two numbers, two strings or two
booleans; when the operands' types were not known beforehand, only numbers and strings are let
through to the comparison.
-/

namespace MapStyle.Semantics

/-- Whether values of two types may be ordered when their types were unknown. -/
def orderable (s t : Ty) : Bool :=
  s.sameKind t && (s == .string || s == .number)

def comparison (op : Comparator) (untyped : Bool) (lhs rhs : Outcome) : Outcome := do
  let lhs ← lhs
  let rhs ← rhs
  match op with
  | .eq => return .boolean (lhs.equals rhs)
  | .ne => return .boolean !lhs.equals rhs
  | op =>
    if untyped && !orderable lhs.type rhs.type then throw (.notComparable op lhs.type rhs.type)
    return .boolean ((lhs.compare? rhs).any op.holds)

end MapStyle.Semantics
