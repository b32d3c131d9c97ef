import MapStyle.Json.Basic

/-!
# Legacy filters

Before filters were expressions they had a positional grammar: `["==", "class", "river"]` compares
the property `class`, and `["in", "$type", "Point"]` asks for the kind of geometry. Such a filter is
expressed by the operators whose names start with `filter-`, which read properties on their own.

Some heads belong to both grammars; `isExpression` tells them apart by their operands. `toExpression` is
total: what neither grammar knows passes every feature.
-/

namespace MapStyle.Filter

def comparisonHeads : List String := ["==", "!=", "<", "<=", ">", ">="]

/-- Lists of values longer than this are sorted for a binary search. -/
def largeMembership : Nat := 200

/-- Whether a field stands for the id or the kind of geometry and not for a property. -/
def isReserved (field : Json) : Bool :=
  field.string? == some "$id" || field.string? == some "$type"

mutual

/-- Whether a filter is in the expression grammar already. -/
def isExpression : Json → Bool
  | .boolean _ => true
  | .array (.string op :: args) =>
    if op == "has" then
      match args with
      | field :: _ => !isReserved field
      | [] => false
    else if op == "in" then
      match args with
      | needle :: haystack :: _ => !needle.isString || haystack.isArray
      | _ => false
    else if op == "!in" || op == "!has" || op == "none" then false
    else if comparisonHeads.contains op then
      match args with
      | [lhs, rhs] => lhs.isArray || rhs.isArray
      | _ => true
    else if op == "any" || op == "all" then areExpressions args
    else true
  | .array (_ :: _) => true
  | _ => false

def areExpressions : List Json → Bool
  | [] => true
  | f :: fs => isExpression f && areExpressions fs

end

def apply (op : String) (args : List Json) : Json :=
  .array (.string op :: args)

def negate (f : Json) : Json := apply "!" [f]

def equality (field value : Json) : Json :=
  match field.string? with
  | some "$type" => apply "filter-type-==" [value]
  | some "$id" => apply "filter-id-==" [value]
  | _ => apply "filter-==" [field, value]

def presence (field : Json) : Json :=
  match field.string? with
  | some "$type" => .boolean true
  | some "$id" => apply "filter-has-id" []
  | _ => apply "filter-has" [field]

/-- Whether all values are numbers, or all strings, or all booleans. -/
def areOfOneKind (values : List Json) : Bool :=
  values.all (·.number?.isSome) || values.all Json.isString || values.all (·.boolean?.isSome)

/-- The order of values of one kind. -/
def scalarOrder : Json → Json → Ordering
  | .number m, .number n =>
    let x := m.toFloat
    let y := n.toFloat
    if x < y then .lt else if y < x then .gt else .eq
  | .string s, .string t => compareOfLessAndEq s t
  | .boolean a, .boolean b => compare a b
  | _, _ => .eq

def sortValues (values : List Json) : List Json :=
  values.mergeSort fun a b => scalarOrder a b != .gt

def membership (field : Json) (values : List Json) : Json :=
  let list (vs : List Json) : Json := apply "literal" [.array vs]
  if values.isEmpty then .boolean false
  else
    match field.string? with
    | some "$type" => apply "filter-type-in" [list values]
    | some "$id" => apply "filter-id-in" [list values]
    | _ =>
      if largeMembership < values.length && areOfOneKind values then
        apply "filter-in-large" [field, list (sortValues values)]
      else apply "filter-in-small" [field, list values]

/-- What a missing operand counts as. -/
def operand : List Json → Json
  | value :: _ => value
  | [] => .null

mutual

/-- A legacy filter in the expression grammar. -/
def express : Json → Json
  | .array [] => .boolean true
  | .array [head] => .boolean (head.string? != some "any")
  | .array (.string op :: field :: rest) =>
    if op == "==" then equality field (operand rest)
    else if op == "!=" then negate (equality field (operand rest))
    else if comparisonHeads.contains op then apply ("filter-" ++ op) [field, operand rest]
    else if op == "any" || op == "all" then apply op (express field :: expressAll rest)
    else if op == "none" then apply "all" (negate (express field) :: (expressAll rest).map negate)
    else if op == "in" then membership field rest
    else if op == "!in" then negate (membership field rest)
    else if op == "has" then presence field
    else if op == "!has" then negate (presence field)
    else .boolean true
  | _ => .boolean true

def expressAll : List Json → List Json
  | [] => []
  | f :: fs => express f :: expressAll fs

end

/-- A filter in the expression grammar. Null passes everything, and an expression is left as it
is. -/
def toExpression (f : Json) : Json :=
  if f.isNull then .boolean true
  else if isExpression f then f
  else express f

mutual

/-- Whether one of the operators that look at geometry stands anywhere in a filter. -/
def usesGeometry : Json → Bool
  | .array (head :: args) =>
    head.string? == some "within" || head.string? == some "distance" || anyUsesGeometry args
  | _ => false

def anyUsesGeometry : List Json → Bool
  | [] => false
  | f :: fs => usesGeometry f || anyUsesGeometry fs

end

end MapStyle.Filter
