import MapStyle.Proofs.Typing.Soundness

/-!
# Enumerations

The values of an enumeration are texts, and only a text is looked up among its
names when an expression of the property is evaluated. A value of any other
type would pass unseen, so that what is rendered is one of the names rests on
the types of compiled trees: where a text is expected, a tree has no other
values. The one exception to the soundness of types, a stray value in the place
of a number, has no place here, since no number is expected.
-/

namespace MapStyle

/-- The values of a type that a text is expected of are texts. -/
theorem Value.exists_string_of_accepts {v : Value}
    (h : Ty.string.accepts v.type = true) : ∃ s, v = .string s := by
  cases v with
  | string s => exact ⟨s, rfl⟩
  | _ => cases h

namespace StyleExpression

variable {spec : PropertySpecification} {raw : Json} {e : StyleExpression}

/-- Where a property expects texts, every value of a compiled tree is one, also
if parts of the tree have no value of the type they declare. -/
theorem exists_string_of_compile (hstring : spec.expectedType = .string)
    (h : compile .standard (some spec) raw = .ok e) {ctx : Context} {v : Value}
    (hv : e.expression.evaluate ctx = .ok v) : ∃ s, v = .string s := by
  obtain ⟨htyped, hexpected⟩ := typed_of_compile h
  have hstrings : Ty.string.accepts e.expression.type = true := by
    rw [← hstring]
    exact hexpected spec rfl
  apply Value.exists_string_of_accepts
  rcases htyped.sound Registry.standard_lawful v hv with
    haccepts | ⟨hnumber, -⟩
  · exact Value.accepts_trans hstrings haccepts
  · rw [hnumber] at hstrings
    cases hstrings

/-- The names that values are looked up in are those of the specification. -/
theorem allowed_of_compile (htype : spec.type = .enum)
    (h : compile .standard (some spec) raw = .ok e) :
    e.allowed = spec.values := by
  rw [compile_eq] at h
  obtain ⟨tree, -, h⟩ := ok_of_bind h
  obtain rfl := ok_of_pure h
  show ((some spec).filter (·.type == .enum)).bind _ = spec.values
  rw [Option.filter_some, htype]
  rfl

theorem fallback_of_compile
    (h : compile .standard (some spec) raw = .ok e) :
    e.fallback = spec.fallback?.getD .null := by
  rw [compile_eq] at h
  obtain ⟨tree, -, h⟩ := ok_of_bind h
  obtain rfl := ok_of_pure h
  rfl

/-- What is rendered for an enumeration is its default or one of its names. -/
theorem render_mem_names {values : EnumValues} (htype : spec.type = .enum)
    (hvalues : spec.values = some values)
    (h : compile .standard (some spec) raw = .ok e) (ctx : Context) :
    e.render ctx = spec.fallback?.getD .null ∨
      ∃ name ∈ values.names, e.render ctx = .string name := by
  rw [← fallback_of_compile h]
  rcases render_eq_fallback_or_value e ctx with hfallback | hvalue
  · exact .inl hfallback
  · right
    have hstring : spec.expectedType = .string := by
      unfold PropertySpecification.expectedType
      rw [htype]
      rfl
    obtain ⟨htree, hnames⟩ := evaluate_eq_ok_iff.1 hvalue
    obtain ⟨name, hname⟩ := exists_string_of_compile hstring h htree
    have hallowed : values ∈ e.allowed :=
      (allowed_of_compile htype h).trans hvalues
    have hcontains : values.names.contains name = true :=
      hnames values hallowed name hname
    exact ⟨name, List.contains_iff_mem.1 hcontains, hname⟩

/-- Names with a description each. -/
def anchors : EnumValues :=
  .documented
    [("map", .object []), ("viewport", .object []), ("auto", .object [])]

/-- A property that has one of them for its value. -/
def anchorProperty : PropertySpecification :=
  { type := .enum, values := some anchors, default := some (.string "auto") }

/-- A feature whose anchor is one of the names. -/
def viewportContext : Context :=
  { feature := some
      { kind := .point, properties := [("anchor", .string "viewport")] } }

theorem render_mem_names_viewport :
    ∃ e, compile .standard (some anchorProperty)
        (.array [.string "get", .string "anchor"]) = .ok e ∧
      e.render viewportContext = .string "viewport" ∧
      (e.render viewportContext = anchorProperty.fallback?.getD .null ∨
        ∃ name ∈ anchors.names, e.render viewportContext = .string name) := by
  obtain ⟨e, he⟩ : ∃ e, compile .standard (some anchorProperty)
      (.array [.string "get", .string "anchor"]) = .ok e := ⟨_, rfl⟩
  have htype : anchorProperty.type = .enum := rfl
  have hvalues : anchorProperty.values = some anchors := rfl
  refine ⟨e, he, ?_, render_mem_names htype hvalues he viewportContext⟩
  cases he
  rfl

end StyleExpression

end MapStyle
