import MapStyle.Context
import MapStyle.Filter.Legacy
import MapStyle.Operator.Comparator

/-!
# What legacy filters mean

The positional grammar as a type of its own, and what its filters mean, said
without expressions: a comparison looks at one field of the feature, and the
three connectives are the disjunction, the conjunction and the joint denial of
their operands. `LegacyFilter.toJson` is how a filter is written.

Two fields are not properties of the feature: `$type` is the kind of its
geometry and `$id` its id, null when it has none. Orders know nothing of them
and take both for names of properties.
-/

namespace MapStyle

/-- What a filter compares with. No document can write NaN. -/
inductive Scalar where
  | null
  | boolean (b : Bool)
  | number (n : Json.Number) (proper : n.toFloat.isNaN = false)
  | string (s : String)

namespace Scalar

def toJson : Scalar → Json
  | .null => .null
  | .boolean b => .boolean b
  | .number n _ => .number n
  | .string s => .string s

def isString : Scalar → Bool
  | .string _ => true
  | _ => false

/-- Whether a value is the scalar. -/
def equals : Scalar → Value → Bool
  | .null, .null => true
  | .boolean b, .boolean a => a == b
  | .number n _, .number x => x == n.toFloat
  | .string s, .string t => t == s
  | _, _ => false

end Scalar

/-- Whether an operator holds between two values of one ordered type. -/
def Comparator.relates {α : Type} [LT α] [DecidableLT α] [BEq α] :
    Comparator → α → α → Bool
  | .eq, a, b => a == b
  | .ne, a, b => a != b
  | .lt, a, b => a < b
  | .gt, a, b => b < a
  | .le, a, b => a < b || a == b
  | .ge, a, b => b < a || a == b

/-- Whether a value is of the kind of the scalar and the operator holds between
them. Null has no order. -/
def Scalar.orders (op : Comparator) : Scalar → Value → Bool
  | .boolean b, .boolean a => op.relates a b
  | .number n _, .number x => op.relates x n.toFloat
  | .string s, .string t => op.relates t s
  | _, _ => false

/-- A legacy filter. The kind of a geometry is only compared with strings. -/
inductive LegacyFilter where
  | equality (negated : Bool) (key : String) (value : Scalar)
      (typed : key = "$type" → value.isString = true)
  | ordering (op : Comparator) (orders : op.isOrdering = true) (key : String)
      (value : Scalar)
  | membership (negated : Bool) (key : String) (values : List Scalar)
      (typed : key = "$type" → ∀ v ∈ values, v.isString = true)
  | presence (negated : Bool) (key : String)
  | any (operands : List LegacyFilter)
  | all (operands : List LegacyFilter)
  | none (operands : List LegacyFilter)

namespace LegacyFilter

mutual

/-- How the filter is written. -/
def toJson : LegacyFilter → Json
  | .equality negated key value _ =>
    Filter.apply (if negated then "!=" else "==") [.string key, value.toJson]
  | .ordering op _ key value =>
    Filter.apply op.symbol [.string key, value.toJson]
  | .membership negated key values _ =>
    Filter.apply (if negated then "!in" else "in")
      (.string key :: values.map Scalar.toJson)
  | .presence negated key =>
    Filter.apply (if negated then "!has" else "has") [.string key]
  | .any operands => Filter.apply "any" (toJsons operands)
  | .all operands => Filter.apply "all" (toJsons operands)
  | .none operands => Filter.apply "none" (toJsons operands)

def toJsons : List LegacyFilter → List Json
  | [] => []
  | f :: fs => toJson f :: toJsons fs

end

variable (ctx : Context)

/-- The field of a feature that a filter compares, if it is there. -/
def field? (key : String) : Option Value :=
  if key = "$type" then ctx.kind?.map fun kind => .string kind.name
  else if key = "$id" then some ctx.id
  else ctx.property? key

/-- Whether a feature has a field. -/
def hasField (key : String) : Bool :=
  if key = "$type" then true
  else if key = "$id" then !ctx.id.isNull
  else (ctx.property? key).isSome

mutual

/-- Whether a feature passes the filter. -/
def holds : LegacyFilter → Bool
  | .equality negated key value _ =>
    negated ^^ (field? ctx key).any value.equals
  | .ordering op _ key value => (ctx.property? key).any (value.orders op)
  | .membership negated key values _ =>
    negated ^^ (field? ctx key).any fun v => values.any (·.equals v)
  | .presence negated key => negated ^^ hasField ctx key
  | .any operands => anyHolds operands
  | .all operands => allHold operands
  | .none operands => !anyHolds operands

def anyHolds : List LegacyFilter → Bool
  | [] => false
  | f :: fs => holds f || anyHolds fs

def allHold : List LegacyFilter → Bool
  | [] => true
  | f :: fs => holds f && allHold fs

end

theorem anyHolds_eq (fs : List LegacyFilter) :
    anyHolds ctx fs = fs.any (holds ctx) := by
  induction fs with
  | nil => rw [anyHolds, List.any_nil]
  | cons f fs ih => rw [anyHolds, ih, List.any_cons]

theorem allHold_eq (fs : List LegacyFilter) :
    allHold ctx fs = fs.all (holds ctx) := by
  induction fs with
  | nil => rw [allHold, List.all_nil]
  | cons f fs ih => rw [allHold, ih, List.all_cons]

end LegacyFilter

end MapStyle
