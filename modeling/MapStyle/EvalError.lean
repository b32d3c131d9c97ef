import MapStyle.Operator.Comparator
import MapStyle.Value.Text

/-!
# Failures of an evaluation

The reasons for which an expression has no value in a context, and the one place that words them.
-/

namespace MapStyle

/-- Why a value does not stand for a color. -/
inductive ColorFailure where
  /-- Its channels are out of range. -/
  | outOfRange (fault : Color.Fault)
  /-- It is an array of too few or too many items. -/
  | itemCount (found : Value)
  /-- It is no form of a color. -/
  | unreadable (found : Value)

/-- What keeps two outputs of a curve from being blended. -/
inductive BlendObstacle where
  | notArrays
  | notNumbers

/-- Operators whose operand has to be a string or an array. -/
inductive SequenceOperator where
  | slice
  | length

inductive EvalError where
  | typeMismatch (expected found : Ty)
  | invalidColor (cause : ColorFailure)
  | notANumber (found : Value)
  | indexBelowZero (index : Float)
  | indexAboveMax (index : Float) (count : Nat)
  | fractionalIndex (index : Float)
  | notInEnum (allowed : List String) (found : Value)
  | thrown (message : String)
  | inputNotANumber
  | notInterpolatable (obstacle : BlendObstacle)
  | arrayLengthMismatch (first second : Nat)
  | notComparable (op : Comparator) (lhs rhs : Ty)
  | invalidNeedle (found : Ty)
  | invalidHaystack (found : Ty)
  | wrongOperandType (op : SequenceOperator) (found : Ty)
  /-- A node holds fewer operands than its kind reads. No compiled expression has such a node. -/
  | missingOperand

namespace ColorFailure

def message : ColorFailure → String
  | .outOfRange fault => fault.message
  | .itemCount found => "Invalid rbga value " ++ found.quotedText ++
      ": expected an array containing either three or four numeric values."
  | .unreadable (.string s) => "Could not parse color from value '" ++ s ++ "'"
  | .unreadable found => "Could not parse color from value '" ++ found.quotedText ++ "'"

end ColorFailure

namespace EvalError

def needleText (found : Ty) : String :=
  "Expected first argument to be of type boolean, string, number or null, but found " ++
    found.text ++ " instead"

def haystackText (found : Ty) : String :=
  "Expected second argument to be of type array or string, but found " ++ found.text ++ " instead"

def message : EvalError → String
  | .typeMismatch expected found =>
    "Expected value to be of type " ++ expected.text ++ ", but found " ++ found.text ++ " instead."
  | .invalidColor cause => cause.message
  | .notANumber found => "Could not convert " ++ found.quotedText ++ " to number."
  | .indexBelowZero index => "Array index out of bounds: " ++ Number.text index ++ " < 0."
  | .indexAboveMax index count =>
    "Array index out of bounds: " ++ Number.text index ++ " > " ++ toString ((count : Int) - 1) ++ "."
  | .fractionalIndex index =>
    "Array index must be an integer, but found " ++ Number.text index ++ " instead."
  | .notInEnum allowed found =>
    "Expected value to be one of " ++ ", ".intercalate (allowed.map Json.quote) ++ ", but found " ++
      found.quotedText ++ " instead."
  | .thrown message => message
  | .inputNotANumber => "Input is not a number."
  | .notInterpolatable .notArrays => "Cannot interpolate non-array values."
  | .notInterpolatable .notNumbers => "Cannot interpolate non-numeric array items."
  | .arrayLengthMismatch first second =>
    "Cannot interpolate arrays of different lengths: " ++ toString first ++ " and " ++
      toString second ++ "."
  | .notComparable op lhs rhs =>
    "Expected arguments for \"" ++ op.symbol ++
      "\" to be (string, string) or (number, number), but found (" ++ lhs.kindName ++ ", " ++
      rhs.kindName ++ ") instead."
  | .invalidNeedle found => needleText found ++ "."
  | .invalidHaystack found => haystackText found ++ "."
  | .wrongOperandType .slice found =>
    "Expected first argument to be of type array or string, but found " ++ found.text ++ " instead."
  | .wrongOperandType .length found =>
    "Expected value to be of type string or array, but found " ++ found.text ++ " instead."
  | .missingOperand => "An operand is missing."

end EvalError

/-- The result of an evaluation. -/
abbrev Outcome := Except EvalError Value

namespace Outcome

/-- A number, or the failure of not being one. -/
def number (o : Outcome) : Except EvalError Float := do
  match ← o with
  | .number x => return x
  | v => throw (.typeMismatch .number v.type)

def string (o : Outcome) : Except EvalError String := do
  match ← o with
  | .string s => return s
  | v => throw (.typeMismatch .string v.type)

def boolean (o : Outcome) : Except EvalError Bool := do
  match ← o with
  | .boolean b => return b
  | v => throw (.typeMismatch .boolean v.type)

def color (o : Outcome) : Except EvalError Color := do
  match ← o with
  | .color c => return c
  | v => throw (.typeMismatch .color v.type)

def object (o : Outcome) : Except EvalError Fields := do
  match ← o with
  | .object fields => return fields
  | v => throw (.typeMismatch .object v.type)

def array (o : Outcome) : Except EvalError (List Value) := do
  match ← o with
  | .array items => return items
  | v => throw (.typeMismatch .anyArray v.type)

end Outcome

end MapStyle
