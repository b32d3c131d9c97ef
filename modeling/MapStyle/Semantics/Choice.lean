import MapStyle.EvalError
import MapStyle.Expr.Basic

/-!
# Choosing between operands

Conditionals, selections by label, the first operand that is not null, and the two logical
connectives. Each looks at its operands in order and at none after the one that decides.
-/

namespace MapStyle.Semantics

/-- The output of the first test with a truthy value. -/
def conditional : List (Outcome × Outcome) → Outcome → Outcome
  | [], otherwise => otherwise
  | (test, output) :: rest, otherwise => do
    if (← test).isTruthy then output else conditional rest otherwise

/-- The label that an input of a selection over type `ty` can match. -/
def inputLabel? (ty : Ty) (input : Value) : Option Label :=
  match input, ty with
  | .number _, .number | .string _, .string => Label.ofValue? input
  | _, _ => none

/-- The output of the branch with the label of the input. -/
def selection (ty : Ty) (input : Outcome) (branches : List (List Label × Outcome))
    (otherwise : Outcome) : Outcome := do
  match inputLabel? ty (← input) with
  | none => otherwise
  | some label =>
    match branches.find? fun (labels, _) => labels.contains label with
    | some (_, output) => output
    | none => otherwise

/-- The first value that is not null. -/
def coalesce : List Outcome → Outcome
  | [] => return .null
  | o :: rest => do
    let v ← o
    if v.isNull then coalesce rest else return v

def all : List Outcome → Outcome
  | [] => return .boolean true
  | o :: rest => do
    if ← o.boolean then all rest else return .boolean false

def any : List Outcome → Outcome
  | [] => return .boolean false
  | o :: rest => do
    if ← o.boolean then return .boolean true else any rest

end MapStyle.Semantics
