import MapStyle.Ty

/-!
# Comparison operators

The six ways to compare two values and the operand types each of them admits.
-/

namespace MapStyle

inductive Comparator where
  | eq
  | ne
  | lt
  | gt
  | le
  | ge
  deriving DecidableEq, Repr

namespace Comparator

def all : List Comparator := [.eq, .ne, .lt, .gt, .le, .ge]

def symbol : Comparator → String
  | .eq => "=="
  | .ne => "!="
  | .lt => "<"
  | .gt => ">"
  | .le => "<="
  | .ge => ">="

def ofSymbol? (s : String) : Option Comparator :=
  all.find? (·.symbol == s)

/-- Whether the operator asks for an order and not just for equality. -/
def isOrdering : Comparator → Bool
  | .eq | .ne => false
  | .lt | .gt | .le | .ge => true

def admits (op : Comparator) : Ty → Bool
  | .string | .number | .value => true
  | .boolean | .null => !op.isOrdering
  | _ => false

/-- Whether the operator holds of two values that are ordered this way. -/
def holds : Comparator → Ordering → Bool
  | .eq, o => o == .eq
  | .ne, o => o != .eq
  | .lt, o => o == .lt
  | .gt, o => o == .gt
  | .le, o => o != .gt
  | .ge, o => o != .lt

end Comparator

end MapStyle
