import MapStyle.Color.Css
import MapStyle.Context
import MapStyle.Json.Text

/-!
# Property specifications

What the style reference says about a property: the type of its values, its default, the runtime
inputs its expressions may read and whether they may interpolate. Specifications are documents
themselves; `ofJson?` reads one and `toJson` writes it back.

A field that is null counts as absent, and fields that are not known are ignored. A word may be
written as an object that has it as its only key, with null as the value, and a structure as the
array of its fields in order.
-/

namespace MapStyle

inductive PropertyType where
  | number
  | string
  | boolean
  | color
  | enum
  | array
  | formatted
  | resolvedImage
  /-- Any type that is not known. -/
  | other
  deriving DecidableEq, Repr

inductive PropertyKind where
  | constant
  | dataConstant
  | dataDriven
  | crossFaded
  | crossFadedDataDriven
  | colorRamp
  deriving DecidableEq, Repr

/-- The values of an enumeration, plain or with a description each. -/
inductive EnumValues where
  | list (names : List String)
  | documented (fields : List (String × Json))

structure ExpressionSpec where
  interpolated : Bool := false
  parameters : List Parameter := []

structure PropertySpecification where
  type : PropertyType
  /-- The type of the items of an array. -/
  value : Option PropertyType := none
  length : Option Nat := none
  default : Option Json := none
  values : Option EnumValues := none
  expression : Option ExpressionSpec := none
  kind : Option PropertyKind := none

namespace PropertyType

def named : List PropertyType :=
  [.number, .string, .boolean, .color, .enum, .array, .formatted, .resolvedImage]

def name : PropertyType → String
  | .number => "number"
  | .string => "string"
  | .boolean => "boolean"
  | .color => "color"
  | .enum => "enum"
  | .array => "array"
  | .formatted => "formatted"
  | .resolvedImage => "resolvedImage"
  | .other => "other"

def ofName (s : String) : PropertyType :=
  (named.find? (·.name == s)).getD .other

/-- The type of the values of a property, or of the items of an array. -/
def ty : PropertyType → Ty
  | .number => .number
  | .string | .enum | .formatted | .resolvedImage => .string
  | .boolean => .boolean
  | .color => .color
  | .array => .anyArray
  | .other => .value

end PropertyType

namespace PropertyKind

def all : List PropertyKind :=
  [.constant, .dataConstant, .dataDriven, .crossFaded, .crossFadedDataDriven, .colorRamp]

def name : PropertyKind → String
  | .constant => "constant"
  | .dataConstant => "data-constant"
  | .dataDriven => "data-driven"
  | .crossFaded => "cross-faded"
  | .crossFadedDataDriven => "cross-faded-data-driven"
  | .colorRamp => "color-ramp"

def ofName? (s : String) : Option PropertyKind :=
  all.find? (·.name == s)

end PropertyKind

namespace EnumValues

def names : EnumValues → List String
  | .list names => names
  | .documented fields => fields.map Prod.fst

def contains (values : EnumValues) (name : String) : Bool :=
  values.names.contains name

def ofJson? : Json → Option EnumValues
  | .array items => (items.mapM Json.string?).map .list
  | .object fields => some (.documented fields)
  | _ => none

def toJson : EnumValues → Json
  | .list names => .array (names.map .string)
  | .documented fields => .object fields

end EnumValues

/-- The word that a document stands for. -/
def Json.word? : Json → Option String
  | .string s => some s
  | .object [(key, .null)] => some key
  | _ => none

/-- The document behind a field that may be absent, as absent or read. -/
def Json.optional? {β : Type} (read? : Json → Option β) : Option Json → Option (Option β)
  | none => some none
  | some .null => some none
  | some j => (read? j).map some

/-- The field of a structure, by name in an object and by position in an array. -/
def Json.part? (j : Json) (name : String) (position : Nat) : Option Json :=
  match j with
  | .array items => items[position]?
  | j => j.field? name

/-- Whether a document can be a structure of at most `size` fields. -/
def Json.isStructure (size : Nat) : Json → Bool
  | .array items => items.length ≤ size
  | .object _ => true
  | _ => false

namespace ExpressionSpec

def ofJson? (j : Json) : Option ExpressionSpec := do
  if !j.isStructure 2 then none
  let interpolated ←
    match j.part? "interpolated" 0 with
    | none => some false
    | some b => b.boolean?
  let parameters ←
    match j.part? "parameters" 1 with
    | none => some []
    | some ps => do (← ps.array?).mapM fun p => p.word?.bind Parameter.ofName?
  return { interpolated, parameters }

def toJson (e : ExpressionSpec) : Json :=
  .ofFields [("interpolated", .boolean e.interpolated),
    ("parameters", .array (e.parameters.map fun p => .string p.name))]

end ExpressionSpec

namespace PropertySpecification

/-- A length: an integer that is not negative. -/
def length? : Json → Option Nat
  | .number (.integer n) => if 0 ≤ n then some n.toNat else none
  | _ => none

def ofJson? (j : Json) : Option PropertySpecification := do
  if !j.isStructure 7 then none
  let typeOf (j : Json) : Option PropertyType := j.word?.map PropertyType.ofName
  let type ← (← j.part? "type" 0) |> typeOf
  let value ← Json.optional? typeOf (j.part? "value" 1)
  let length ← Json.optional? length? (j.part? "length" 2)
  let default ← Json.optional? some (j.part? "default" 3)
  let values ← Json.optional? EnumValues.ofJson? (j.part? "values" 4)
  let expression ← Json.optional? ExpressionSpec.ofJson? (j.part? "expression" 5)
  let kind ← Json.optional? (fun k => k.word?.bind PropertyKind.ofName?) (j.part? "property-type" 6)
  return { type, value, length, default, values, expression, kind }

def toJson (spec : PropertySpecification) : Json :=
  let field {β : Type} (name : String) (toJson : β → Json) (value : Option β) :
      List (String × Json) :=
    (value.map fun v => (name, toJson v)).toList
  .ofFields ([("type", .string spec.type.name)] ++
    field "value" (fun t : PropertyType => .string t.name) spec.value ++
    field "length" (fun n : Nat => .number (.integer n)) spec.length ++
    field "default" (fun j : Json => j) spec.default ++
    field "values" EnumValues.toJson spec.values ++
    field "expression" ExpressionSpec.toJson spec.expression ++
    field "property-type" (fun k : PropertyKind => .string k.name) spec.kind)

/-- The type that an expression of the property has to produce. -/
def expectedType (spec : PropertySpecification) : Ty :=
  match spec.type with
  | .array => .array ((spec.value.map PropertyType.ty).getD .value) spec.length
  | type => type.ty

/-- Whether an expression of the property may read a parameter. -/
def allows (spec : PropertySpecification) (p : Parameter) : Bool :=
  spec.expression.any fun e => e.parameters.contains p

/-- Whether an expression of the property may interpolate over zoom. -/
def interpolated (spec : PropertySpecification) : Bool :=
  spec.expression.any ExpressionSpec.interpolated

/-- The default value. The default of a color is read as a color. -/
def fallback? (spec : PropertySpecification) : Option Value :=
  match spec.type, spec.default with
  | _, none => none
  | .color, some (.string s) => (Color.parse? s).map .color
  | _, some j => some (Value.ofJson j)

end PropertySpecification

end MapStyle
