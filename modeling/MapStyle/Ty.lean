/-!
# Types of expressions

A type says which values an expression may produce. `value` is the type of everything, `error` the
type of an expression that never produces a value, and arrays say what their items are and,
optionally, how many there are.

`Ty.accepts` is the rule by which an expression of one type may stand where another is expected.
-/

namespace MapStyle

inductive Ty where
  | null
  | number
  | string
  | boolean
  | color
  | object
  | value
  | error
  | array (item : Ty) (length : Option Nat)
  deriving DecidableEq, Repr

namespace Ty

def anyArray : Ty := .array .value none

/-- The word for the kind of a type, which leaves out what an array holds. -/
def kindName : Ty → String
  | .null => "null"
  | .number => "number"
  | .string => "string"
  | .boolean => "boolean"
  | .color => "color"
  | .object => "object"
  | .value => "value"
  | .error => "error"
  | .array _ _ => "array"

def sameKind : Ty → Ty → Bool
  | .array _ _, .array _ _ => true
  | s, t => s == t

def isArray : Ty → Bool
  | .array _ _ => true
  | _ => false

/-- The type as messages show it. -/
def text : Ty → String
  | .array item (some n) => "array<" ++ item.text ++ ", " ++ toString n ++ ">"
  | .array .value none => "array"
  | .array item none => "array<" ++ item.text ++ ">"
  | t => t.kindName

/-- Whether an expression of the second type may stand where the first is expected. Everything is a
`value`, `error` stands for everything, scalars have to agree, and an array has to have the expected
length, if any, and items of the expected type; an empty array of unknown items has them all. -/
def accepts : Ty → Ty → Bool
  | _, .error => true
  | .value, _ => true
  | .array item length, .array item' length' =>
    ((length' == some 0 && item' == .value) || item.accepts item') &&
      (length.isNone || length == length')
  | .array _ _, _ => false
  | expected, actual => expected.sameKind actual

theorem accepts_error (t : Ty) : t.accepts .error = true := by
  cases t <;> rfl

theorem value_accepts (t : Ty) : value.accepts t = true := by
  cases t <;> rfl

theorem accepts_refl (t : Ty) : t.accepts t = true := by
  induction t with
  | array item length ih => simp [accepts, ih]
  | _ => rfl

end Ty

end MapStyle
