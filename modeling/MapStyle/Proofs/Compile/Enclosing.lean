import MapStyle.Proofs.Compile.Dependence
import MapStyle.Proofs.Expr.CurvePlaces

/-!
# Lexical scoping

The scope that a reference was compiled in is gone once the tree is there. What
is left of it is where the reference stands: `Expr.enclosing` lists the bindings
in whose result a place lies, and `Resolves` says what a name means among them,
which is what the innermost of those that bind it binds it to last.

In a compiled tree every reference carries just that (`references_resolve`). The
values of a binding are no part of its result, so a reference in one of them
means what it would mean outside. The induction is on the place, with
`Expr.Scoped` for the names that are in scope there.
-/

namespace MapStyle

/-- The expression that a list of bindings gives a name last. -/
def LastBinding (names : List (String × Expr)) (name : String) (bound : Expr) :
    Prop :=
  ∃ earlier later, names = earlier ++ (name, bound) :: later ∧
    ∀ p ∈ later, p.1 ≠ name

/-- What a name means within some bindings, the outermost first: the innermost
of those that bind it decides. -/
def Resolves (bindings : List (List (String × Expr))) (name : String)
    (bound : Expr) : Prop :=
  ∃ outer names inner, bindings = outer ++ names :: inner ∧
    LastBinding names name bound ∧
    ∀ hidden ∈ inner, ∀ p ∈ hidden, p.1 ≠ name

namespace Expr

/-- The bindings of a node that are in force at one of its children. -/
def opened : Expr → Nat → List (List (String × Expr))
  | .binding names _, i => if i = names.length then [names] else []
  | _, _ => []

/-- The bindings in whose result a place lies, the outermost first. -/
def enclosing : Expr → List Nat → List (List (String × Expr))
  | _, [] => []
  | e, i :: path =>
    match e.children[i]? with
    | none => []
    | some c => e.opened i ++ enclosing c path

variable {e c p : Expr} {i : Nat} {path below : List Nat}

theorem at?_cons (hc : e.children[i]? = some c) :
    e.at? (i :: path) = c.at? path := by
  rw [at?, hc, Option.bind_some]

theorem enclosing_cons (hc : e.children[i]? = some c) :
    e.enclosing (i :: path) = e.opened i ++ c.enclosing path := by
  rw [enclosing, hc]

theorem opened_of_form? (h : e.form? ≠ some .binding) (i : Nat) :
    e.opened i = [] := by
  cases e with
  | binding => exact absurd rfl h
  | _ => rfl

/-- A place below a place is found from there. -/
theorem at?_append (h : e.at? path = some c) :
    e.at? (path ++ below) = c.at? below := by
  induction path generalizing e with
  | nil =>
      obtain rfl := Option.some.inj h
      rfl
  | cons i path ih =>
      obtain ⟨d, hd, h⟩ := Option.bind_eq_some_iff.1 h
      rw [List.cons_append, at?_cons hd, ih h]

theorem enclosing_append (h : e.at? path = some c) :
    e.enclosing (path ++ below) = e.enclosing path ++ c.enclosing below := by
  induction path generalizing e with
  | nil =>
      obtain rfl := Option.some.inj h
      rfl
  | cons i path ih =>
      obtain ⟨d, hd, h⟩ := Option.bind_eq_some_iff.1 h
      rw [List.cons_append, enclosing_cons hd, enclosing_cons hd, ih h,
        List.append_assoc]

/-- Every node of a tree has a place. -/
theorem exists_path_of_mem_nodes (h : p ∈ e.nodes) :
    ∃ path, e.at? path = some p := by
  induction e using Expr.induction with
  | step e ih =>
      rw [nodes_eq] at h
      rcases List.mem_cons.1 h with rfl | h
      · exact ⟨[], rfl⟩
      · obtain ⟨c, hc, hp⟩ := List.mem_flatMap.1 h
        obtain ⟨path, hpath⟩ := ih c (mem_operands_of_mem_children hc) hp
        obtain ⟨i, hi⟩ := List.mem_iff_getElem?.1 hc
        exact ⟨i :: path, (at?_cons hi).trans hpath⟩

/-- The values of a binding stand before its body. -/
theorem getElem?_value {names : List (String × Expr)} {body : Expr}
    {value : String × Expr} (h : names[i]? = some value) :
    (binding names body).children[i]? = some value.2 := by
  have hi : i < (names.map Prod.snd).length := by
    rw [List.length_map]
    exact (List.getElem?_eq_some_iff.1 h).1
  rw [children, List.getElem?_append_left hi, List.getElem?_map, h,
    Option.map_some]

theorem opened_value {names : List (String × Expr)} {body : Expr}
    {value : String × Expr} (h : names[i]? = some value) :
    (binding names body).opened i = [] := by
  rw [opened, if_neg (Nat.ne_of_lt (List.getElem?_eq_some_iff.1 h).1)]

/-- A child of a binding is one of the values or the body. -/
theorem binding_child_cases {names : List (String × Expr)} {body : Expr}
    (hc : (binding names body).children[i]? = some c) :
    (∃ value, names[i]? = some value ∧ c = value.2) ∨
      i = names.length ∧ c = body := by
  rcases Nat.lt_trichotomy i names.length with hlt | rfl | hgt
  · refine .inl ⟨names[i], List.getElem?_eq_getElem hlt, ?_⟩
    have hvalue : (binding names body).children[i]? = some names[i].2 :=
      getElem?_value (List.getElem?_eq_getElem hlt)
    exact Option.some.inj (hc.symm.trans hvalue)
  · exact .inr ⟨rfl, Option.some.inj (hc.symm.trans (getElem?_body names body))⟩
  · obtain ⟨hlt, -⟩ := List.getElem?_eq_some_iff.1 hc
    simp only [children, List.length_append, List.length_map,
      List.length_singleton] at hlt
    omega

/-- What a reference carries is found among the bindings around it and, behind
them, in the scope of the tree. -/
theorem Scoped.lookup_of_at? {scope : Scope} {name : String} {bound : Expr}
    (h : e.Scoped scope) (hat : e.at? path = some (.reference name bound)) :
    ((e.enclosing path).flatten.reverse ++ scope).lookup name = some bound := by
  induction path generalizing e scope with
  | nil =>
      obtain rfl := Option.some.inj hat
      cases h with
      | reference h => exact h
      | plain _ hreference _ => exact absurd rfl hreference
  | cons i path ih =>
      obtain ⟨c, hc, hbelow⟩ := Option.bind_eq_some_iff.1 hat
      rw [enclosing_cons hc]
      cases h with
      | @binding _ names body hnames hbody =>
          -- Only the body has the names of the binding before it in scope.
          rcases binding_child_cases hc with ⟨value, hvalue, rfl⟩ | ⟨rfl, rfl⟩
          · rw [opened_value hvalue]
            exact ih (hnames value (List.mem_of_getElem? hvalue)) hbelow
          · rw [opened, if_pos rfl, List.singleton_append, List.flatten_cons,
              List.reverse_append, List.append_assoc]
            exact ih hbody hbelow
      | reference => cases hc
      | plain hbinding _ h =>
          rw [opened_of_form? hbinding]
          exact ih (h c (List.mem_of_getElem? hc)) hbelow

end Expr

/-! ## The meaning of a name -/

variable {name : String} {bound : Expr}

/-- The first that is found from the back is what is bound last. -/
theorem lastBinding_of_lookup {names : List (String × Expr)}
    (h : names.reverse.lookup name = some bound) :
    LastBinding names name bound := by
  obtain ⟨later, earlier, heq, hlater⟩ := List.lookup_eq_some_iff.1 h
  refine ⟨earlier.reverse, later.reverse, ?_, fun p hp => ?_⟩
  · rw [← List.reverse_reverse names, heq]
    simp
  · exact (bne_iff_ne.1 (hlater p (List.mem_reverse.1 hp))).symm

theorem ne_of_lookup_eq_none {bindings : List (List (String × Expr))}
    (h : bindings.flatten.reverse.lookup name = none) :
    ∀ hidden ∈ bindings, ∀ p ∈ hidden, p.1 ≠ name := by
  intro hidden hhidden p hp hname
  have hmem : p ∈ bindings.flatten.reverse :=
    List.mem_reverse.2 (List.mem_flatten.2 ⟨hidden, hhidden, hp⟩)
  have := List.lookup_eq_none_iff.1 h p hmem
  simp [hname] at this

theorem resolves_of_lookup {bindings : List (List (String × Expr))}
    (h : bindings.flatten.reverse.lookup name = some bound) :
    Resolves bindings name bound := by
  induction bindings with
  | nil => cases h
  | cons names bindings ih =>
      rw [List.flatten_cons, List.reverse_append, List.lookup_append] at h
      cases hinner : bindings.flatten.reverse.lookup name with
      | some b =>
          rw [hinner, Option.some_or] at h
          obtain ⟨outer, names', inner, rfl, hlast, hhidden⟩ :=
            ih (hinner.trans h)
          exact ⟨names :: outer, names', inner, rfl, hlast, hhidden⟩
      | none =>
          rw [hinner, Option.none_or] at h
          exact ⟨[], names, bindings, rfl, lastBinding_of_lookup h,
            ne_of_lookup_eq_none hinner⟩

/-- In a closed tree a reference carries what its name means where it stands. -/
theorem Expr.Scoped.resolves {e : Expr} (h : e.Scoped []) {path : List Nat}
    (hat : e.at? path = some (.reference name bound)) :
    Resolves (e.enclosing path) name bound := by
  have := h.lookup_of_at? hat
  rw [List.append_nil] at this
  exact resolves_of_lookup this

namespace StyleExpression

/-- In a compiled expression every reference carries what its name means where
it stands: what the innermost of the bindings that bind the name and have the
reference in their result binds it to last. For a reference in a value that is
bound, these are bindings around the binding of the value and bindings inside of
the value. Nothing that a reference carries is without a place of its own in the
expression. -/
theorem references_resolve {registry : Registry}
    {spec : Option PropertySpecification} {raw : Json} {e : StyleExpression}
    (h : compile registry spec raw = .ok e) :
    (∀ path name bound,
      e.expression.at? path = some (.reference name bound) →
        Resolves (e.expression.enclosing path) name bound) ∧
    (∀ path names body,
      e.expression.at? path = some (.binding names body) →
        ∀ value ∈ names, ∀ below name bound,
          value.2.at? below = some (.reference name bound) →
            Resolves (e.expression.enclosing path ++ value.2.enclosing below)
              name bound) ∧
    ∀ p : Expr, p.PartOf e.expression →
      ∃ path, e.expression.at? path = some p := by
  have hscoped : e.expression.Scoped [] := scoped_of_compile h
  refine ⟨fun path name bound => hscoped.resolves, ?_,
    fun p hp => Expr.exists_path_of_mem_nodes (hscoped.mem_nodes hp)⟩
  intro path names body hpath value hvalue below name bound hbelow
  obtain ⟨i, hi⟩ := List.mem_iff_getElem?.1 hvalue
  have hchild : (Expr.binding names body).children[i]? = some value.2 :=
    Expr.getElem?_value hi
  have hat : e.expression.at? (path ++ i :: below) =
      some (.reference name bound) := by
    rw [Expr.at?_append hpath, Expr.at?_cons hchild, hbelow]
  have henclosing : e.expression.enclosing (path ++ i :: below) =
      e.expression.enclosing path ++ value.2.enclosing below := by
    rw [Expr.enclosing_append hpath, Expr.enclosing_cons hchild,
      Expr.opened_value hi, List.nil_append]
  exact henclosing ▸ hscoped.resolves hat

/-- `["let", "a", ["get", "x"], ["let", "a", ["get", "y"], "b", ["var", "a"],
"a", ["get", "z"], ["==", ["var", "a"], ["var", "b"]]]]`. -/
def nestedDocument : Json :=
  .array [.string "let", .string "a", .array [.string "get", .string "x"],
    .array [.string "let", .string "a", .array [.string "get", .string "y"],
      .string "b", .array [.string "var", .string "a"],
      .string "a", .array [.string "get", .string "z"],
      .array [.string "==", .array [.string "var", .string "a"],
        .array [.string "var", .string "b"]]]]

def propertyNamed (name : String) : Expr :=
  .compound "get" .value .property false [.literal .string (.string name)]

/-- What the inner binding binds. -/
def nestedNames : List (String × Expr) :=
  [("a", propertyNamed "y"), ("b", .reference "a" (propertyNamed "x")),
    ("a", propertyNamed "z")]

/-- What the document compiles to. -/
def nestedExpression : StyleExpression :=
  { expression := .binding [("a", propertyNamed "x")]
      (.binding nestedNames
        (.comparison .boolean .eq true (.reference "a" (propertyNamed "z"))
          (.reference "b" (.reference "a" (propertyNamed "x")))))
    fallback := .null
    allowed := none }

set_option maxRecDepth 4000 in
/-- The name `a` means one thing in the result of the inner binding, where it is
bound twice, and another in the value of `b`. -/
theorem references_resolve_nested :
    compile .standard none nestedDocument = .ok nestedExpression ∧
      Resolves [[("a", propertyNamed "x")], nestedNames] "a"
        (propertyNamed "z") ∧
      Resolves [[("a", propertyNamed "x")]] "a" (propertyNamed "x") := by
  have hcompile : compile .standard none nestedDocument =
      .ok nestedExpression := by
    rfl
  obtain ⟨hreference, hvalue, -⟩ := references_resolve hcompile
  refine ⟨hcompile, hreference [1, 3, 0] "a" (propertyNamed "z") rfl, ?_⟩
  exact hvalue [1] nestedNames _ rfl ("b", .reference "a" (propertyNamed "x"))
    (by simp [nestedNames]) [] "a" (propertyNamed "x") rfl

end StyleExpression

end MapStyle
