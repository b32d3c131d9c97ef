import MapStyle.EvalError
import MapStyle.Expr.ZoomCurve
import MapStyle.Operator.Registry

/-!
# Diagnostics

What can be wrong with an expression before it is ever evaluated, where, and in which words. A place
is the path of array positions that leads from the root of the expression to the fault.
-/

namespace MapStyle

inductive Issue where
  | bareObject
  | emptyArray
  /-- The first item of an array is of some other kind than a string. -/
  | headKind (kind : String)
  | unknownOperator (name : String)
  | mismatch (expected found : Ty)
  /-- The expression is constant and fails. -/
  | failure (error : EvalError)
  | noOperand
  | notOneOperand
  | itemType
  | arrayLength
  | unknownAssertion (name : String)
  | tooFewForBinding (found : Nat)
  | nameKind (kind : String)
  | nameCharacters
  | referenceOperand
  | unknownVariable (name : String)
  | tooFewOperands (least found : Nat)
  | oddExpected
  | evenExpected
  | noLabel
  | labelSize
  | labelFraction
  | labelKind
  | labelRepeated
  | operandCount (least most found : Nat)
  | needleType (found : Ty)
  | haystackType (found : Ty)
  | sliceInput (found : Ty)
  | lengthInput (found : Ty)
  | unknownComparison
  | collator
  | comparisonCount
  | comparisonType (op : Comparator) (found : Ty)
  | incomparable (lhs rhs : Ty)
  /-- No signature takes the operands. -/
  | noSignature (params : List Params) (found : List Ty)
  | globalName
  /-- A form that takes one operand has some other number of them. -/
  | exactlyOne (form : String) (found : Nat)
  | region (form : String)
  | interpolationMissing
  | exponentialBase
  | bezierControl
  | unknownInterpolation (name : String)
  | notInterpolatable (found : Ty)
  | stopLabel (form : String)
  | stopOrder (form : String)
  | dataForbidden
  | stateForbidden
  | zoomForbidden
  | interpolateForbidden
  | zoomCurve (error : ZoomCurveError)
  /-- A form has fewer operands than it reads. Forms count their operands before they read them, so
  this never happens. -/
  | missingOperand
  /-- A fault found elsewhere, in words of its own. -/
  | other (message : String)

namespace Issue

def wanted (least most : Nat) : String :=
  if least == most then
    if least == 1 then "1 argument" else toString least ++ " arguments"
  else toString least ++ " or " ++ toString most ++ " arguments"

def message : Issue → String
  | .bareObject => "Bare objects invalid. Use [\"literal\", \x7b...\x7d] instead."
  | .emptyArray => "Expected an array with at least one element. If you wanted a literal array, use [\"literal\", []]."
  | .headKind kind => "Expression name must be a string, but found " ++ kind ++
      " instead. If you wanted a literal array, use [\"literal\", [...]]."
  | .unknownOperator name => "Unknown expression \"" ++ name ++
      "\". If you wanted a literal array, use [\"literal\", [...]]."
  | .mismatch expected found =>
    "Expected " ++ expected.text ++ " but found " ++ found.text ++ " instead."
  | .failure error => error.message
  | .noOperand => "Expected at least one argument."
  | .notOneOperand => "Expected one argument."
  | .itemType => "The item type argument of \"array\" must be one of string, number, boolean"
  | .arrayLength => "The length argument to \"array\" must be a positive integer literal"
  | .unknownAssertion name => "Unknown type assertion \"" ++ name ++ "\"."
  | .tooFewForBinding found =>
    "Expected at least 3 arguments, but found " ++ toString found ++ " instead."
  | .nameKind kind => "Expected string, but found " ++ kind ++ " instead."
  | .nameCharacters => "Variable names must contain only alphanumeric characters or '_'."
  | .referenceOperand => "'var' expression requires exactly one string literal argument."
  | .unknownVariable name => "Unknown variable \"" ++ name ++ "\". Make sure \"" ++ name ++
      "\" has been bound in an enclosing \"let\" expression before using it."
  | .tooFewOperands least found => "Expected at least " ++ toString least ++
      " arguments, but found only " ++ toString found ++ "."
  | .oddExpected => "Expected an odd number of arguments."
  | .evenExpected => "Expected an even number of arguments."
  | .noLabel => "Expected at least one branch label."
  | .labelSize => "Branch labels must be integers no larger than " ++
      toString Number.largestSafe ++ "."
  | .labelFraction => "Numeric branch labels must be integer values."
  | .labelKind => "Branch labels must be numbers or strings."
  | .labelRepeated => "Branch labels must be unique."
  | .operandCount least most found =>
    "Expected " ++ wanted least most ++ ", but found " ++ toString found ++ " instead."
  | .needleType found => EvalError.needleText found
  | .haystackType found => EvalError.haystackText found
  | .sliceInput found => "Expected first argument to be of type array or string, but found " ++
      found.text ++ " instead"
  | .lengthInput found => "Expected argument of type string or array, but found " ++ found.text ++
      " instead."
  | .unknownComparison => "Unknown comparison operator."
  | .collator => "Collator arguments are not supported."
  | .comparisonCount => "Expected two or three arguments."
  | .comparisonType op found => "\"" ++ op.symbol ++ "\" comparisons are not supported for type '" ++
      found.text ++ "'."
  | .incomparable lhs rhs => "Cannot compare types '" ++ lhs.text ++ "' and '" ++ rhs.text ++ "'."
  | .noSignature params found => "Expected arguments of type " ++
      " | ".intercalate (params.map Params.text) ++ ", but found (" ++
      ", ".intercalate (found.map Ty.text) ++ ") instead."
  | .globalName => "Global state property must be defined"
  | .exactlyOne form found => "'" ++ form ++
      "' expression requires exactly one argument, but found " ++ toString found ++ " instead."
  | .region form => "'" ++ form ++
      "' expression requires valid geojson object that contains polygon geometry type."
  | .interpolationMissing => "Expected an interpolation type expression."
  | .exponentialBase => "Exponential interpolation requires a numeric base."
  | .bezierControl => "Cubic bezier interpolation requires four numeric arguments with values between 0 and 1."
  | .unknownInterpolation name => "Unknown interpolation type " ++ name
  | .notInterpolatable found => "Type " ++ found.text ++ " is not interpolatable."
  | .stopLabel form => "Input/output pairs for \"" ++ form ++
      "\" expressions must be defined using literal numeric values (not computed expressions) for the input values."
  | .stopOrder form => "Input/output pairs for \"" ++ form ++
      "\" expressions must be arranged with input values in strictly ascending order."
  | .dataForbidden => "data expressions not supported"
  | .stateForbidden => "\"feature-state\" data expressions are not supported with this property"
  | .zoomForbidden => "zoom expressions not supported"
  | .interpolateForbidden => "\"interpolate\" expressions cannot be used with this property"
  | .zoomCurve error => error.message
  | .missingOperand => "An operand is missing."
  | .other message => message

end Issue

structure Diagnostic where
  path : List Nat
  issue : Issue

namespace Diagnostic

/-- The text of a place: array positions in brackets, nothing for the root. -/
def keyText (path : List Nat) : String :=
  String.join (path.map fun i => "[" ++ toString i ++ "]")

def key (d : Diagnostic) : String :=
  keyText d.path

def message (d : Diagnostic) : String :=
  d.issue.message

/-- The message behind its place; at the root the message alone. -/
def text (d : Diagnostic) : String :=
  if d.path.isEmpty then d.message else d.key ++ ": " ++ d.message

def summary (ds : List Diagnostic) : String :=
  ", ".intercalate (ds.map text)

end Diagnostic

end MapStyle
