import MapStyle.Compile.Operand

/-!
# Comparisons

Both operands are compiled as they are and their types checked afterwards. When only one of the
types is known, an order asserts that the other operand has it too; equality needs no such help.
-/

namespace MapStyle.Compile

def comparisonOperand (op : Comparator) (s : Site) (position : Nat) (o : Operand) :
    Compiled Expr := do
  let e ← o.compileAt s position (some .value)
  if op.admits e.type then return e else s.failAt [position] (.comparisonType op e.type)

/-- The expression narrowed to `known` if its type is open and the other one is not. -/
def narrowTo (known : Ty) (e : Expr) : Expr :=
  if e.type == .value && known != .value then .assertion known [e] else e

def comparison (name : String) (s : Site) (args : List Operand) : Compiled Expr :=
  match Comparator.ofSymbol? name with
  | none => s.fail .unknownComparison
  | some op =>
    match args with
    | [lhs, rhs] => do
      let lhs ← comparisonOperand op s 1 lhs
      let rhs ← comparisonOperand op s 2 rhs
      let (l, r) := (lhs.type, rhs.type)
      if !l.sameKind r && l != .value && r != .value then s.fail (.incomparable l r)
      else
        let (lhs, rhs) := if op.isOrdering then (narrowTo r lhs, narrowTo l rhs) else (lhs, rhs)
        return .comparison .boolean op (lhs.type == .value || rhs.type == .value) lhs rhs
    | [_, _, _] => s.failAt [3] .collator
    | _ => s.fail .comparisonCount

end MapStyle.Compile
