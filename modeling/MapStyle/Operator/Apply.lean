import MapStyle.EvalError
import MapStyle.Geometry.Rings
import MapStyle.Number.Order
import MapStyle.Operator.Primitive
import MapStyle.Text.Case

/-!
# What primitive operations compute

`Primitive.apply` takes the outcomes of the operands in order and looks at them from left to right,
so the first operand that fails, or that has the wrong kind of value, decides the failure.
-/

namespace MapStyle

/-- The name of a feature's geometry type; where the geometry is decoded, one with several parts
has a name of its own. -/
def Feature.geometryType (f : Feature) : String :=
  match f.kind, f.geometry with
  | .point, some g => if 1 < g.flatten.length then "MultiPoint" else f.kind.name
  | .lineString, some g => if 1 < g.length then "MultiLineString" else f.kind.name
  | .polygon, some g => if 1 < (Geometry.classify g).length then "MultiPolygon" else f.kind.name
  | kind, _ => kind.name

/-- Whether a value equal to `v` is in a list sorted by `Value.compare?`, by halving the list. A
value that cannot be compared with one it meets is not there. -/
def Value.isInSorted (v : Value) (sorted : List Value) : Bool :=
  match _h : sorted[sorted.length / 2]? with
  | none => false
  | some middle =>
    match middle.compare? v with
    | some .eq => true
    | some .lt => v.isInSorted (sorted.drop (sorted.length / 2 + 1))
    | some .gt => v.isInSorted (sorted.take (sorted.length / 2))
    | none => false
termination_by sorted.length
decreasing_by
  all_goals
    have := (List.getElem?_eq_some_iff.1 _h).1
    simp only [List.length_drop, List.length_take]
    omega

namespace Primitive

/-- The smallest number by an order of choice; NaN if any number is. -/
def extreme (choose : Float → Float → Float) (start : Float) (xs : List Float) : Float :=
  if xs.any Float.isNaN then Number.nan else xs.foldl choose start

/-- The color of three channels up to 255 and an alpha, if they are in range. -/
def colorOf (r g b : Float) (a : Option Float) : Outcome :=
  match Color.fault? r g b a with
  | some fault => .error (.invalidColor (.outOfRange fault))
  | none => .ok (.color (Color.ofBytes r g b (a.getD 1)))

/-- Whether a property that is there passes a test. -/
def testProperty (ctx : Context) (key : String) (test : Value → Bool) : Value :=
  .boolean ((ctx.property? key).any test)

/-- The result of a primitive on the outcomes of its operands. Operands that no signature of it has
are not looked at. -/
def apply (ctx : Context) : Primitive → List Outcome → Outcome
  | .sum, args => do return .number ((← args.mapM Outcome.number).foldl (· + ·) 0)
  | .product, args => do return .number ((← args.mapM Outcome.number).foldl (· * ·) 1)
  | .difference, a :: b :: _ => do return .number ((← a.number) - (← b.number))
  | .negation, a :: _ => do return .number (-(← a.number))
  | .quotient, a :: b :: _ => do return .number ((← a.number) / (← b.number))
  | .remainder, a :: b :: _ => do return .number (Number.remainder (← a.number) (← b.number))
  | .power, a :: b :: _ => do return .number ((← a.number).pow (← b.number))
  | .least, args => do
    return .number (extreme Number.lesser Number.infinity (← args.mapM Outcome.number))
  | .greatest, args => do
    return .number (extreme Number.greater (-Number.infinity) (← args.mapM Outcome.number))
  | .constant c, _ => return .number c.value
  | .function f, a :: _ => do return .number (f.apply (← a.number))
  | .upcase, a :: _ => do return .string (Text.toUpper (← a.string))
  | .downcase, a :: _ => do return .string (Text.toLower (← a.string))
  | .concat, args => do return .string (String.join ((← args.mapM fun o => o).map Value.text))
  | .typeName, a :: _ => do return .string (← a).type.text
  | .color, [r, g, b] => do colorOf (← r.number) (← g.number) (← b.number) none
  | .color, r :: g :: b :: a :: _ => do
    colorOf (← r.number) (← g.number) (← b.number) (some (← a.number))
  | .channels, c :: _ => do return .array ((← c.color).toBytes.map .number)
  | .property, key :: _ => do return (ctx.property? (← key.string)).getD .null
  | .member, key :: object :: _ => do
    let key ← key.string
    return ((← object.object).lookup key).getD .null
  | .hasProperty, key :: _ => do return .boolean (ctx.property? (← key.string)).isSome
  | .hasMember, key :: object :: _ => do
    let key ← key.string
    return .boolean ((← object.object).lookup key).isSome
  | .state, key :: _ => do return ctx.stateValue (← key.string)
  | .properties, _ => return .object ((ctx.feature.map Feature.properties).getD [])
  | .geometryType, _ =>
    return .string ((ctx.feature.map Feature.geometryType).getD GeometryKind.unknown.name)
  | .id, _ => return ctx.id
  | .zoom, _ => return .number ctx.zoom
  | .heatmapDensity, _ => return .number (ctx.heatmapDensity.getD 0)
  | .lineProgress, _ => return .number (ctx.lineProgress.getD 0)
  | .accumulated, _ => return (ctx.accumulated.map Value.number).getD .null
  | .not, a :: _ => do return .boolean !(← a.boolean)
  | .fail, a :: _ => do throw (.thrown (← a.string))
  | .propertyEquals, key :: value :: _ => do
    let key ← key.string
    let value ← value
    return testProperty ctx key (·.equals value)
  | .idEquals, value :: _ => do return .boolean (ctx.id.equals (← value))
  | .kindEquals, name :: _ => do
    let name ← name.string
    return .boolean (ctx.kind?.any (·.name == name))
  | .propertyCompares op, key :: value :: _ => do
    let key ← key.string
    let value ← value
    return testProperty ctx key fun p => (p.compare? value).any op.holds
  | .propertyPresent, key :: _ => do return .boolean (ctx.property? (← key).text).isSome
  | .idPresent, _ => return .boolean !ctx.id.isNull
  | .kindIn, names :: _ => do
    let names ← names.array
    return .boolean (ctx.kind?.any fun k => names.any fun v => v.string? == some k.name)
  | .idIn, ids :: _ => do return .boolean ((← ids.array).any (·.equals ctx.id))
  | .propertyIn, key :: values :: _ => do
    let key ← key.string
    let values ← values.array
    return testProperty ctx key fun p => values.any (·.equals p)
  | .propertyInSorted, key :: values :: _ => do
    let key ← key.string
    let values ← values.array
    return testProperty ctx key (·.isInSorted values)
  | _, _ => throw .missingOperand

end Primitive

end MapStyle
