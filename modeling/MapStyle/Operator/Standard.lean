import MapStyle.Operator.Registry

/-!
# The standard operators

The operators of style expressions: special forms, arithmetic, text, colors, the feature and the
renderer's inputs, logic, and the family that expresses legacy filters. That family reads
properties on its own, because in a legacy filter a property that is absent matches nothing, whereas
`get` reads it as null.
-/

namespace MapStyle.Registry

def specialForms : List (String × SpecialForm) :=
  [("literal", .literal),
   ("array", .assertion), ("boolean", .assertion), ("number", .assertion), ("string", .assertion),
   ("object", .assertion),
   ("to-boolean", .coercion), ("to-color", .coercion), ("to-number", .coercion),
   ("to-string", .coercion),
   ("let", .binding), ("var", .reference),
   ("at", .item), ("in", .membership), ("index-of", .position), ("slice", .slice),
   ("length", .length),
   ("case", .conditional), ("match", .selection), ("coalesce", .coalesce),
   ("step", .step), ("interpolate", .interpolate), ("interpolate-hcl", .interpolate),
   ("interpolate-lab", .interpolate),
   ("all", .all), ("any", .any),
   ("global-state", .globalState), ("within", .within), ("distance", .distance),
   ("==", .comparison), ("!=", .comparison), ("<", .comparison), (">", .comparison),
   ("<=", .comparison), (">=", .comparison)]

/-- A compound operator with one signature of fixed operand types. -/
def simple (name : String) (params : List Ty) (output : Ty) (primitive : Primitive) :
    CompoundOperator Primitive :=
  { name, output, signatures := [⟨.fixed params, primitive⟩] }

/-- A compound operator on any number of operands of one type. -/
def variadic (name : String) (param output : Ty) (primitive : Primitive) :
    CompoundOperator Primitive :=
  { name, output, signatures := [⟨.variadic param, primitive⟩] }

def arithmetic : List (CompoundOperator Primitive) :=
  [variadic "+" .number .number .sum,
   variadic "*" .number .number .product,
   { name := "-", output := .number,
     signatures := [⟨.fixed [.number, .number], .difference⟩, ⟨.fixed [.number], .negation⟩] },
   simple "/" [.number, .number] .number .quotient,
   simple "%" [.number, .number] .number .remainder,
   simple "^" [.number, .number] .number .power,
   simple "ln2" [] .number (.constant .ln2),
   simple "pi" [] .number (.constant .pi),
   simple "e" [] .number (.constant .e),
   variadic "min" .number .number .least,
   variadic "max" .number .number .greatest] ++
  NumericFunction.all.map fun f => simple f.name [.number] .number (.function f)

def texts : List (CompoundOperator Primitive) :=
  [simple "upcase" [.string] .string .upcase,
   simple "downcase" [.string] .string .downcase,
   variadic "concat" .value .string .concat,
   simple "typeof" [.value] .string .typeName]

def colors : List (CompoundOperator Primitive) :=
  [simple "rgb" [.number, .number, .number] .color .color,
   simple "rgba" [.number, .number, .number, .number] .color .color,
   simple "to-rgba" [.color] (.array .number (some 4)) .channels]

def inputs : List (CompoundOperator Primitive) :=
  [{ name := "get", output := .value,
     signatures := [⟨.fixed [.string], .property⟩, ⟨.fixed [.string, .object], .member⟩] },
   { name := "has", output := .boolean,
     signatures := [⟨.fixed [.string], .hasProperty⟩, ⟨.fixed [.string, .object], .hasMember⟩] },
   simple "feature-state" [.string] .value .state,
   simple "properties" [] .object .properties,
   simple "geometry-type" [] .string .geometryType,
   simple "id" [] .value .id,
   simple "zoom" [] .number .zoom,
   simple "heatmap-density" [] .number .heatmapDensity,
   simple "line-progress" [] .number .lineProgress,
   simple "accumulated" [] .number .accumulated]

/-- Negation, and the operator that fails on purpose. -/
def logic : List (CompoundOperator Primitive) :=
  [simple "!" [.boolean] .boolean .not,
   { name := "error", output := .error, signatures := [⟨.fixed [.string], .fail⟩], impure := true }]

def legacyTests : List (CompoundOperator Primitive) :=
  [simple "filter-==" [.string, .value] .boolean .propertyEquals,
   simple "filter-id-==" [.value] .boolean .idEquals,
   simple "filter-type-==" [.string] .boolean .kindEquals,
   simple "filter-<" [.string, .value] .boolean (.propertyCompares .lt),
   simple "filter->" [.string, .value] .boolean (.propertyCompares .gt),
   simple "filter-<=" [.string, .value] .boolean (.propertyCompares .le),
   simple "filter->=" [.string, .value] .boolean (.propertyCompares .ge),
   simple "filter-has" [.value] .boolean .propertyPresent,
   simple "filter-has-id" [] .boolean .idPresent,
   simple "filter-type-in" [.array .string none] .boolean .kindIn,
   simple "filter-id-in" [.anyArray] .boolean .idIn,
   simple "filter-in-small" [.string, .anyArray] .boolean .propertyIn,
   simple "filter-in-large" [.string, .anyArray] .boolean .propertyInSorted]

def compounds : List (CompoundOperator Primitive) :=
  arithmetic ++ texts ++ colors ++ inputs ++ logic ++ legacyTests

def standard : Registry :=
  ⟨specialForms.map (fun (name, form) => .special name form) ++ compounds.map .compound⟩

end MapStyle.Registry
