import MapStyle.Proofs.Compile.Forms

/-!
# What compiled nodes are made of

A form makes one node of its own kind, and the children of that node are what
its operands compile to. All of them are compiled in the scope of the form,
apart from the body of a binding, which sees the names of the binding as well;
a comparison may put an assertion around one of its operands.

This is all that a fact about compiled trees has to know of the forms when it
follows the tree down to the document. `Assembled` says it of a node, and
`Hereditary` is what such a fact has to satisfy: it then holds of everything
that compiles (`compile_inherits`).
-/

namespace MapStyle

/-- Whatever the run results in satisfies the postcondition. -/
def Ensures {α : Type} (Q : α → Prop) (x : Compiled α) : Prop :=
  ∀ a, x = .ok a → Q a

namespace Ensures

variable {α β : Type} {Q : α → Prop} {P : β → Prop}

theorem fail {s : Site} {issue : Issue} : Ensures Q (s.fail issue) := nofun

theorem failAt {s : Site} {keys : List Nat} {issue : Issue} :
    Ensures Q (s.failAt keys issue) := nofun

theorem pure {a : α} (h : Q a) : Ensures Q (Pure.pure a) := by
  intro b hb
  obtain rfl := ok_of_pure hb
  exact h

theorem bind {x : Compiled α} {f : α → Compiled β} (h : Ensures Q x)
    (hf : ∀ a, Q a → Ensures P (f a)) : Ensures P (x >>= f) := by
  intro b hb
  obtain ⟨a, hx, hb⟩ := ok_of_bind hb
  exact hf a (h a hx) b hb

/-- A step whose result does not matter. -/
theorem skip {x : Compiled α} {f : α → Compiled β}
    (hf : ∀ a, Ensures P (f a)) : Ensures P (x >>= f) :=
  bind (Q := fun _ => True) (fun _ _ => trivial) fun a _ => hf a

theorem mono {Q' : α → Prop} {x : Compiled α} (h : Ensures Q x)
    (hQ : ∀ a, Q a → Q' a) : Ensures Q' x := fun a ha => hQ a (h a ha)

theorem both {x : Compiled α} {y : Compiled β} (h : Ensures Q x)
    (h' : Ensures P y) :
    Ensures (fun p => Q p.1 ∧ P p.2) (Operand.both x y) := by
  intro p hp
  cases x with
  | error ds => cases y <;> cases hp
  | ok a =>
      cases y with
      | error ds => cases hp
      | ok b =>
          cases hp
          exact ⟨h a rfl, h' b rfl⟩

end Ensures

/-- The form that makes nodes of this kind; compound operators have none. -/
def Expr.form? : Expr → Option SpecialForm
  | .literal _ _ => some .literal
  | .assertion _ _ => some .assertion
  | .coercion _ _ => some .coercion
  | .binding _ _ => some .binding
  | .reference _ _ => some .reference
  | .item _ _ _ => some .item
  | .membership _ _ _ => some .membership
  | .position _ _ _ _ => some .position
  | .slice _ _ _ _ => some .slice
  | .length _ _ => some .length
  | .conditional _ _ _ => some .conditional
  | .selection _ _ _ _ _ => some .selection
  | .coalesce _ _ => some .coalesce
  | .step _ _ _ => some .step
  | .interpolate _ _ _ _ _ => some .interpolate
  | .comparison _ _ _ _ _ => some .comparison
  | .all _ _ => some .all
  | .any _ _ => some .any
  | .globalState _ _ => some .globalState
  | .within _ _ => some .within
  | .distance _ _ => some .distance
  | .compound _ _ _ _ _ => none

/-- An order asserts one of its operands, the last tree here, which is of
unknown type, to be of the type of the other one. -/
inductive Expr.Narrows : Expr → Ty → Expr → Prop where
  | lhs {op : Comparator} {untyped : Bool} {ty : Ty} {e rhs : Expr}
      (hop : op.isOrdering = true) (he : e.type = .value) :
      Narrows (.comparison .boolean op untyped (.assertion ty [e]) rhs) ty e
  | rhs {op : Comparator} {untyped : Bool} {ty : Ty} {e lhs : Expr}
      (hop : op.isOrdering = true) (he : e.type = .value) :
      Narrows (.comparison .boolean op untyped lhs (.assertion ty [e])) ty e

namespace Compile

/-- What one of the operands compiles to in a scope. -/
def FromOperand (args : List Operand) (scope : Scope) (e : Expr) : Prop :=
  ∃ o ∈ args, ∃ (s : Site) (how : Option Narrowing),
    s.scope = scope ∧ o.compile s how = .ok e

/-- What one of the operands compiles to in a scope, or an assertion of that. -/
inductive FromOperands (args : List Operand) (scope : Scope) : Expr → Prop where
  | operand {e : Expr} (h : FromOperand args scope e) :
      FromOperands args scope e
  | assertion {ty : Ty} {e : Expr} (h : FromOperands args scope e) :
      FromOperands args scope (.assertion ty [e])

/-- A node made in a scope, if `P` says what a child may be in which scope. -/
inductive Assembled (P : Scope → Expr → Prop) (scope : Scope) :
    Expr → Prop where
  | binding {names : List (String × Expr)} {body : Expr}
      (hnames : ∀ p ∈ names, P scope p.2)
      (hbody : P (names.reverse ++ scope) body) :
      Assembled P scope (.binding names body)
  | reference {name : String} {bound : Expr}
      (h : scope.lookup name = some bound) :
      Assembled P scope (.reference name bound)
  | plain {e : Expr} (hbinding : e.form? ≠ some .binding)
      (hreference : e.form? ≠ some .reference)
      (h : ∀ c ∈ e.children, P scope c) : Assembled P scope e

theorem Assembled.mono {P P' : Scope → Expr → Prop} {scope : Scope} {e : Expr}
    (h : Assembled P scope e) (hP : ∀ scope c, P scope c → P' scope c) :
    Assembled P' scope e := by
  cases h with
  | binding hnames hbody =>
      exact .binding (fun p hp => hP _ _ (hnames p hp)) (hP _ _ hbody)
  | reference h => exact .reference h
  | plain hbinding hreference h =>
      exact .plain hbinding hreference fun c hc => hP _ _ (h c hc)

/-- Every child is one in some scope. -/
theorem Assembled.exists_scope {P : Scope → Expr → Prop} {scope : Scope}
    {e c : Expr} (h : Assembled P scope e) (hc : c ∈ e.children) :
    ∃ scope', P scope' c := by
  cases h with
  | binding hnames hbody =>
      rcases List.mem_append.1 hc with hc | hc
      · obtain ⟨p, hp, rfl⟩ := List.mem_map.1 hc
        exact ⟨_, hnames p hp⟩
      · obtain rfl := List.mem_singleton.1 hc
        exact ⟨_, hbody⟩
  | reference => cases hc
  | plain _ _ h => exact ⟨_, h c hc⟩

/-- A node of the kind of a form, with children from its operands. -/
def Plain (f : Option SpecialForm) (s : Site) (args : List Operand)
    (e : Expr) : Prop :=
  e.form? = f ∧ ∀ c ∈ e.children, FromOperand args s.scope c

variable {s : Site} {args : List Operand} {o : Operand}

/-! ## Operands -/

theorem compileAt_from (ho : o ∈ args) (i : Nat) (expected : Option Ty) :
    Ensures (FromOperand args s.scope) (o.compileAt s i expected) := by
  intro e h
  have hscope : (s.child i expected []).scope = s.scope := rfl
  exact ⟨o, ho, _, _, hscope, h⟩

theorem subset_of_pair {a b : Operand} {os : List Operand}
    (h : a :: b :: os ⊆ args) : os ⊆ args :=
  (List.cons_subset.1 (List.cons_subset.1 h).2).2

theorem compileAll_from {os : List Operand} (hos : os ⊆ args)
    (expected : Option Ty) (i : Nat) :
    Ensures (fun es => ∀ e ∈ es, FromOperand args s.scope e)
      (Operand.compileAll s expected i os) := by
  induction os generalizing i with
  | nil => exact .pure nofun
  | cons o os ih =>
      obtain ⟨ho, hos⟩ := List.cons_subset.1 hos
      refine .bind (compileAt_from ho i expected) fun e he => ?_
      refine .bind (ih hos (i + 1)) fun es hes => ?_
      exact .pure (List.forall_mem_cons.2 ⟨he, hes⟩)

theorem operandsAgainst_from {os : List Operand} (hos : os ⊆ args)
    (tys : List Ty) (i : Nat) :
    Ensures (fun es => ∀ e ∈ es, FromOperand args s.scope e)
      (operandsAgainst s i tys os) := by
  induction os generalizing i tys with
  | nil => cases tys <;> exact .pure nofun
  | cons o os ih =>
      cases tys with
      | nil => exact .pure nofun
      | cons ty tys =>
          obtain ⟨ho, hos⟩ := List.cons_subset.1 hos
          refine .bind (compileAt_from ho i (some ty)) fun e he => ?_
          refine .bind (ih hos tys (i + 1)) fun es hes => ?_
          exact .pure (List.forall_mem_cons.2 ⟨he, hes⟩)

/-! ## Literals, assertions and conversions -/

theorem literal_plain : Ensures (Plain (some .literal) s args)
    (literal s args) := by
  match args with
  | [] | _ :: _ :: _ => exact .fail
  | [o] =>
      intro e h
      obtain ⟨ty, v, rfl, -⟩ := literal_ok h
      exact ⟨rfl, nofun⟩

theorem assertion_plain {name : String} :
    Ensures (Plain (some .assertion) s args) (assertion name s args) := by
  have made {os : List Operand} (hos : os ⊆ args) (ty : Ty) (i : Nat) :
      Ensures (Plain (some .assertion) s args)
        (do return .assertion ty (← Operand.compileAll s (some .value) i os)) :=
    .bind (compileAll_from hos _ i) fun es hes => .pure ⟨rfl, hes⟩
  unfold assertion
  split
  · exact .fail
  · split
    · unfold arrayAssertion
      split
      · exact .skip fun item => .skip fun length =>
          made (subset_of_pair (List.Subset.refl _)) _ 3
      · exact .skip fun item => made (List.subset_cons_self _ _) _ 2
      · exact made (List.Subset.refl _) _ 1
    · split
      · exact .fail
      · exact made (List.Subset.refl _) _ 1

theorem conversion_plain {name : String} :
    Ensures (Plain (some .coercion) s args) (conversion name s args) := by
  unfold conversion
  simp only
  split
  · exact .fail
  · split
    · exact .fail
    · have hargs := List.Subset.refl args
      refine .bind (compileAll_from hargs _ 1) fun es hes => ?_
      exact .pure ⟨rfl, hes⟩

/-! ## Bound names -/

theorem boundNames_from {os : List Operand} (hos : os ⊆ args) (i : Nat) :
    Ensures (fun p => (∀ q ∈ p.1, FromOperand args s.scope q.2) ∧
      p.2.2 ∈ args) (boundNames s i os) := by
  match os with
  | [] => exact .fail
  | [body] => exact .pure ⟨nofun, hos List.mem_cons_self⟩
  | [name, value] =>
      have hvalue : value ∈ args := hos (by simp)
      refine .skip fun name => ?_
      refine .bind (compileAt_from hvalue (i + 1) none) fun e he => ?_
      exact .pure ⟨List.forall_mem_singleton.2 he, hvalue⟩
  | name :: value :: next :: rest =>
      have hvalue : value ∈ args := hos (by simp)
      have hrest : next :: rest ⊆ args := subset_of_pair hos
      refine .skip fun name => ?_
      refine .bind (compileAt_from hvalue (i + 1) none) fun e he => ?_
      refine .bind (boundNames_from hrest (i + 2)) ?_
      rintro ⟨names, position, body⟩ ⟨hnames, hbody⟩
      exact .pure ⟨List.forall_mem_cons.2 ⟨he, hnames⟩, hbody⟩

theorem binding_assembled : Ensures (fun e => e.form? = some .binding ∧
    Assembled (FromOperand args) s.scope e) (binding s args) := by
  unfold binding
  split
  · exact .fail
  · refine .bind (boundNames_from (List.Subset.refl args) 1) ?_
    rintro ⟨names, position, body⟩ ⟨hnames, hbody⟩
    intro e h
    obtain ⟨result, hresult, h⟩ := ok_of_bind h
    obtain rfl := ok_of_pure h
    exact ⟨rfl, .binding hnames ⟨body, hbody, _, _, rfl, hresult⟩⟩

theorem reference_assembled : Ensures (fun e =>
    e.form? = some .reference ∧ Assembled (FromOperand args) s.scope e)
    (reference s args) := by
  unfold reference
  split
  · split
    · next hlookup => exact .pure ⟨rfl, .reference hlookup⟩
    · exact .failAt
  · exact .fail

theorem globalState_plain :
    Ensures (Plain (some .globalState) s args) (globalState s args) := by
  unfold globalState
  split
  · exact .pure ⟨rfl, nofun⟩
  · exact .fail

/-! ## Sequences -/

theorem item_plain : Ensures (Plain (some .item) s args) (item s args) := by
  refine .skip fun _ => ?_
  split
  · next index input =>
      have hindex : index ∈ [index, input] := by simp
      have hinput : input ∈ [index, input] := by simp
      refine .bind (.both (compileAt_from hindex 1 _)
        (compileAt_from hinput 2 _)) ?_
      rintro ⟨index, input⟩ ⟨hindex, hinput⟩
      have hchildren := List.forall_mem_cons.2
        ⟨hindex, List.forall_mem_singleton.2 hinput⟩
      simp only
      split <;> exact .pure ⟨rfl, hchildren⟩
  · exact .fail

theorem needleAndHaystack_from {needle haystack : Operand}
    (hneedle : needle ∈ args) (hhaystack : haystack ∈ args) :
    Ensures (fun p => FromOperand args s.scope p.1 ∧
      FromOperand args s.scope p.2) (needleAndHaystack s needle haystack) := by
  refine .bind (.both (compileAt_from hneedle 1 _)
    (compileAt_from hhaystack 2 _)) ?_
  rintro ⟨n, h⟩ hfrom
  simp only
  split
  · exact .fail
  · split
    · exact .fail
    · exact .pure hfrom

theorem membership_plain :
    Ensures (Plain (some .membership) s args) (membership s args) := by
  refine .skip fun _ => ?_
  split
  · next needle haystack =>
      have hneedle : needle ∈ [needle, haystack] := by simp
      have hhaystack : haystack ∈ [needle, haystack] := by simp
      refine .bind (needleAndHaystack_from hneedle hhaystack) ?_
      rintro ⟨n, h⟩ ⟨hn, hh⟩
      exact .pure ⟨rfl, List.forall_mem_cons.2
        ⟨hn, List.forall_mem_singleton.2 hh⟩⟩
  · exact .fail

theorem optionalNumber_from {os : List Operand} (hos : os ⊆ args) (i : Nat) :
    Ensures (fun o => ∀ e ∈ o.toList, FromOperand args s.scope e)
      (optionalNumber s i os) := by
  cases os with
  | nil => exact .pure nofun
  | cons o os =>
      refine .bind (compileAt_from (hos List.mem_cons_self) i _) fun e he => ?_
      exact .pure (List.forall_mem_singleton.2 he)

theorem position_plain :
    Ensures (Plain (some .position) s args) (position s args) := by
  refine .skip fun _ => ?_
  split
  · next needle haystack rest =>
      have hneedle : needle ∈ needle :: haystack :: rest := by simp
      have hhaystack : haystack ∈ needle :: haystack :: rest := by simp
      refine .bind (needleAndHaystack_from hneedle hhaystack) ?_
      rintro ⟨n, h⟩ ⟨hn, hh⟩
      have hrest : rest ⊆ needle :: haystack :: rest :=
        subset_of_pair (List.Subset.refl _)
      refine .bind (optionalNumber_from hrest 3) ?_
      intro start hstart
      exact .pure ⟨rfl, List.forall_mem_cons.2
        ⟨hn, List.forall_mem_cons.2 ⟨hh, hstart⟩⟩⟩
  · exact .fail

theorem slice_plain : Ensures (Plain (some .slice) s args) (slice s args) := by
  refine .skip fun _ => ?_
  split
  · next input start rest =>
      have hinput : input ∈ input :: start :: rest := by simp
      have hstart : start ∈ input :: start :: rest := by simp
      refine .bind (.both (compileAt_from hinput 1 _)
        (compileAt_from hstart 2 _)) ?_
      rintro ⟨n, h⟩ ⟨hn, hh⟩
      simp only
      split
      · exact .fail
      · have hrest : rest ⊆ input :: start :: rest :=
          subset_of_pair (List.Subset.refl _)
        refine .bind (optionalNumber_from hrest 3) ?_
        intro stop hstop
        exact .pure ⟨rfl, List.forall_mem_cons.2
          ⟨hn, List.forall_mem_cons.2 ⟨hh, hstop⟩⟩⟩
  · exact .fail

theorem length_plain :
    Ensures (Plain (some .length) s args) (length s args) := by
  refine .skip fun _ => ?_
  split
  · next input =>
      have hinput : input ∈ [input] := List.mem_cons_self
      refine .bind (compileAt_from hinput 1 none) fun input h => ?_
      split
      · exact .pure ⟨rfl, List.forall_mem_singleton.2 h⟩
      · exact .fail
  · exact .fail

/-! ## Choices -/

theorem output_from (ho : o ∈ args) (i : Nat) (ty : Option Ty) :
    Ensures (fun p => FromOperand args s.scope p.1) (output s i ty o) :=
  .bind (compileAt_from ho i ty) fun _ he => .pure he

theorem branches_from {os : List Operand} (hos : os ⊆ args) (i : Nat)
    (ty : Option Ty) :
    Ensures (fun p =>
      (∀ e ∈ p.1.flatMap fun (test, output) => [test, output],
        FromOperand args s.scope e) ∧ FromOperand args s.scope p.2.1)
      (branches s i ty os) := by
  match os with
  | [] => exact .fail
  | [otherwise] =>
      refine .bind (output_from (hos List.mem_cons_self) i ty) fun p hp => ?_
      exact .pure ⟨nofun, hp⟩
  | test :: result :: rest =>
      have hrest : rest ⊆ args := subset_of_pair hos
      refine .bind (compileAt_from (hos (by simp)) i _) fun t ht => ?_
      refine .bind (output_from (hos (by simp)) (i + 1) ty) fun p hp => ?_
      refine .bind (branches_from hrest (i + 2) _) ?_
      rintro ⟨more, otherwise, ty⟩ ⟨hmore, hotherwise⟩
      exact .pure ⟨List.forall_mem_cons.2
        ⟨ht, List.forall_mem_cons.2 ⟨hp, hmore⟩⟩, hotherwise⟩

theorem conditional_plain :
    Ensures (Plain (some .conditional) s args) (conditional s args) := by
  unfold conditional
  split
  · exact .fail
  · split
    · exact .fail
    · refine .bind (branches_from (List.Subset.refl args) 1 _) ?_
      rintro ⟨bs, otherwise, ty⟩ ⟨hbs, hotherwise⟩
      exact .pure ⟨rfl, List.forall_mem_append.2
        ⟨hbs, List.forall_mem_singleton.2 hotherwise⟩⟩

theorem labelled_from {os : List Operand} (hos : os ⊆ args) (i : Nat)
    (seen : List Label) (inputTy ty : Option Ty) :
    Ensures (fun p => (∀ e ∈ p.1.map Prod.snd, FromOperand args s.scope e) ∧
      p.2.2.2.2 ∈ args) (labelled s i seen inputTy ty os) := by
  match os with
  | [] => exact .fail
  | [otherwise] => exact .pure ⟨nofun, hos List.mem_cons_self⟩
  | raw :: result :: rest =>
      have hrest : rest ⊆ args := subset_of_pair hos
      unfold labelled
      simp only
      split
      · exact .failAt
      · refine .skip fun ls => ?_
        refine .bind (output_from (hos (by simp)) (i + 1) ty) fun p hp => ?_
        refine .bind (labelled_from hrest (i + 2) _ _ _) ?_
        rintro q ⟨hmore, hlast⟩
        exact .pure ⟨List.forall_mem_cons.2 ⟨hp, hmore⟩, hlast⟩

theorem selection_plain :
    Ensures (Plain (some .selection) s args) (selection s args) := by
  unfold selection
  split
  · exact .fail
  · split
    · exact .fail
    · split
      · exact .fail
      · next input rest _ _ =>
          have hinput : input ∈ input :: rest := List.mem_cons_self
          have hrest := List.subset_cons_self input rest
          refine .bind (labelled_from hrest 2 _ _ _) ?_
          rintro ⟨bs, inputTy, ty, i, otherwise⟩ ⟨hbs, ho⟩
          refine .bind (compileAt_from hinput 1 _) fun input hin => ?_
          refine .bind (output_from ho _ _) fun p hp => ?_
          simp only
          split
          · exact .failAt
          · exact .pure ⟨rfl, List.forall_mem_append.2
              ⟨List.forall_mem_cons.2 ⟨hin, hbs⟩,
                List.forall_mem_singleton.2 hp⟩⟩

theorem alternatives_from {os : List Operand} (hos : os ⊆ args) (i : Nat)
    (ty : Option Ty) :
    Ensures (fun p => ∀ e ∈ p.1, FromOperand args s.scope e)
      (alternatives s i ty os) := by
  induction os generalizing i ty with
  | nil => exact .pure nofun
  | cons o os ih =>
      obtain ⟨ho, hos⟩ := List.cons_subset.1 hos
      have hscope : (s.child i ty []).scope = s.scope := rfl
      have hfirst : Ensures (FromOperand args s.scope)
          (o.compile (s.child i ty []) (some .omit)) :=
        fun e he => ⟨o, ho, _, _, hscope, he⟩
      refine .bind hfirst fun e he => ?_
      refine .bind (ih hos (i + 1) _) fun p hp => ?_
      exact .pure (List.forall_mem_cons.2 ⟨he, hp⟩)

theorem coalesce_plain :
    Ensures (Plain (some .coalesce) s args) (coalesce s args) := by
  unfold coalesce
  split
  · exact .fail
  · refine .bind (alternatives_from (List.Subset.refl args) 1 _) fun p hp => ?_
    exact .pure ⟨rfl, hp⟩

/-! ## Curves -/

theorem stops_from {name : String} {os : List Operand} (hos : os ⊆ args)
    (i : Nat) (previous : Option Float) (ty : Option Ty) :
    Ensures (fun p => ∀ e ∈ p.1.map Prod.snd, FromOperand args s.scope e)
      (stops name s i previous ty os) := by
  match os with
  | [] | [_] => exact .pure nofun
  | l :: o :: rest =>
      have hrest : rest ⊆ args := subset_of_pair hos
      refine .skip fun x => ?_
      refine .bind (compileAt_from (hos (by simp)) (i + 1) ty) fun e he => ?_
      refine .bind (stops_from hrest (i + 2) _ _) fun p hp => ?_
      exact .pure (List.forall_mem_cons.2 ⟨he, hp⟩)

theorem step_plain : Ensures (Plain (some .step) s args) (step s args) := by
  refine .skip fun _ => ?_
  split
  · next input first rest =>
      have hinput : input ∈ input :: first :: rest := by simp
      have hfirst : first ∈ input :: first :: rest := by simp
      have hrest : rest ⊆ input :: first :: rest :=
        subset_of_pair (List.Subset.refl _)
      refine .bind (compileAt_from hinput 1 _) fun input hin => ?_
      refine .bind (compileAt_from hfirst 2 _) fun first hfirst => ?_
      refine .bind (stops_from hrest 3 _ _) fun p hp => ?_
      exact .pure ⟨rfl, List.forall_mem_cons.2
        ⟨hin, List.forall_mem_cons.2 ⟨hfirst, hp⟩⟩⟩
  · exact .fail

theorem interpolate_plain {name : String} :
    Ensures (Plain (some .interpolate) s args) (interpolate name s args) := by
  unfold interpolate
  split
  · exact .failAt
  · next kind operands =>
      refine .skip fun interpolation => .skip fun _ => ?_
      split
      · next input rest =>
          have hinput : input ∈ kind :: input :: rest := by simp
          have hrest : rest ⊆ kind :: input :: rest :=
            subset_of_pair (List.Subset.refl _)
          refine .bind (compileAt_from hinput 2 _) fun input hin => ?_
          refine .bind (stops_from hrest 3 _ _) fun p hp => ?_
          simp only
          split
          · exact .pure ⟨rfl, List.forall_mem_cons.2 ⟨hin, hp⟩⟩
          · exact .fail
      · exact .fail

/-! ## Comparisons -/

theorem comparisonOperand_from {op : Comparator} (ho : o ∈ args) (i : Nat) :
    Ensures (FromOperand args s.scope) (comparisonOperand op s i o) := by
  refine .bind (compileAt_from ho i _) fun e he => ?_
  split
  · exact .pure he
  · exact .failAt

theorem narrowTo_cases (known : Ty) (e : Expr) :
    narrowTo known e = e ∨
      (e.type = .value ∧ narrowTo known e = .assertion known [e]) := by
  unfold narrowTo
  split
  · next hvalue =>
      exact .inr ⟨eq_of_beq (Bool.and_eq_true_iff.1 hvalue).1, rfl⟩
  · exact .inl rfl

/-- The operands of a comparison stay as they are, except for those of unknown
type that an order asserts. -/
theorem comparison_narrows {name : String} :
    Ensures (fun e => e.form? = some .comparison ∧ ∀ c ∈ e.children,
      FromOperand args s.scope c ∨ ∃ ty b, c = .assertion ty [b] ∧
        e.Narrows ty b ∧ FromOperand args s.scope b)
      (comparison name s args) := by
  unfold comparison
  split
  · exact .fail
  · next op _ =>
      split
      · next lhs rhs =>
          have hlhs : lhs ∈ [lhs, rhs] := by simp
          have hrhs : rhs ∈ [lhs, rhs] := by simp
          refine .bind (comparisonOperand_from hlhs 1) fun l hl => ?_
          refine .bind (comparisonOperand_from hrhs 2) fun r hr => ?_
          simp only
          split
          · exact .fail
          · split
            · next hop =>
                refine .pure ⟨rfl, List.forall_mem_cons.2
                  ⟨?_, List.forall_mem_singleton.2 ?_⟩⟩
                · rcases narrowTo_cases r.type l with h | ⟨hvalue, h⟩ <;> rw [h]
                  · exact .inl hl
                  · exact .inr ⟨_, _, rfl, .lhs hop hvalue, hl⟩
                · rcases narrowTo_cases l.type r with h | ⟨hvalue, h⟩ <;> rw [h]
                  · exact .inl hr
                  · exact .inr ⟨_, _, rfl, .rhs hop hvalue, hr⟩
            · exact .pure ⟨rfl, List.forall_mem_cons.2
                ⟨.inl hl, List.forall_mem_singleton.2 (.inl hr)⟩⟩
      · exact .failAt
      · exact .fail

/-! ## Geometry, connectives and compound operators -/

theorem within_plain :
    Ensures (Plain (some .within) s args) (within s args) := by
  unfold within
  split
  · simp only
    split
    · exact .fail
    · exact .pure ⟨rfl, nofun⟩
  · exact .fail

theorem distance_plain :
    Ensures (Plain (some .distance) s args) (distance s args) := by
  unfold distance
  split
  · simp only
    split
    · exact .fail
    · exact .pure ⟨rfl, nofun⟩
  · exact .fail

theorem connective_from (node : Ty → List Expr → Expr) :
    Ensures (fun e => ∃ es, e = node .boolean es ∧
      ∀ c ∈ es, FromOperand args s.scope c) (connective node s args) :=
  .bind (compileAll_from (List.Subset.refl args) _ 1) fun es hes =>
    .pure ⟨es, rfl, hes⟩

theorem attempt_plain (op : CompoundOperator Primitive)
    (sig : Signature Primitive) :
    Ensures (fun a => Plain none s args a.node) (attempt op s args sig) :=
  .bind (operandsAgainst_from (List.Subset.refl args) _ 1) fun _ hes =>
    .pure ⟨rfl, hes⟩

theorem noSignature_ensures {ω : Type} {Q : Application ω → Prop}
    (sigs : List (Signature ω)) :
    Ensures Q (noSignature s args sigs) :=
  .skip fun _ => .fail

/-- The first signature that fits is one of the attempts. -/
theorem attempt_of_firstFitting {ω : Type} {op : CompoundOperator ω}
    {sigs : List (Signature ω)} {a : Application ω}
    (h : firstFitting op s args sigs = some a) :
    ∃ sig ∈ sigs, attempt op s args sig = .ok a := by
  induction sigs with
  | nil => cases h
  | cons sig sigs ih =>
      unfold firstFitting at h
      split at h
      · next hattempt =>
          cases h
          exact ⟨sig, List.mem_cons_self, hattempt⟩
      · obtain ⟨sig', hsig', hattempt⟩ := ih h
        exact ⟨sig', List.mem_cons_of_mem _ hsig', hattempt⟩

theorem choice_plain (op : CompoundOperator Primitive) :
    Ensures (fun a => Plain none s args a.node) (choice op s args) := by
  unfold choice
  split
  · exact noSignature_ensures _
  · exact attempt_plain op _
  · split
    · next hfirst =>
        obtain ⟨sig, -, hattempt⟩ := attempt_of_firstFitting hfirst
        exact .pure (attempt_plain op sig _ hattempt)
    · exact noSignature_ensures _

theorem compound_plain (op : CompoundOperator Primitive) :
    Ensures (Plain none s args) (compound op s args) :=
  .bind (choice_plain op) fun _ => .pure

/-! ## Applications -/

/-- A form makes a node of its kind out of its operands, and all but comparisons
take what these compile to as it is. -/
theorem form_takes {f : SpecialForm} (hf : f ≠ .comparison) (name : String) :
    Ensures (fun e => e.form? = some f ∧
      Assembled (FromOperand args) s.scope e) (form f name s args) := by
  have plain {f : SpecialForm} {x : Compiled Expr}
      (hbinding : f ≠ .binding) (hreference : f ≠ .reference)
      (h : Ensures (Plain (some f) s args) x) :
      Ensures (fun e => e.form? = some f ∧
        Assembled (FromOperand args) s.scope e) x := by
    refine h.mono fun e ⟨hform, hchildren⟩ => ⟨hform, .plain ?_ ?_ hchildren⟩
    · simpa [hform] using hbinding
    · simpa [hform] using hreference
  cases f with
  | literal => exact plain nofun nofun literal_plain
  | assertion => exact plain nofun nofun assertion_plain
  | coercion => exact plain nofun nofun conversion_plain
  | binding => exact binding_assembled
  | reference => exact reference_assembled
  | item => exact plain nofun nofun item_plain
  | membership => exact plain nofun nofun membership_plain
  | position => exact plain nofun nofun position_plain
  | slice => exact plain nofun nofun slice_plain
  | length => exact plain nofun nofun length_plain
  | conditional => exact plain nofun nofun conditional_plain
  | selection => exact plain nofun nofun selection_plain
  | coalesce => exact plain nofun nofun coalesce_plain
  | step => exact plain nofun nofun step_plain
  | interpolate => exact plain nofun nofun interpolate_plain
  | comparison => exact absurd rfl hf
  | all =>
      refine plain nofun nofun ((connective_from .all).mono ?_)
      rintro _ ⟨es, rfl, hes⟩
      exact ⟨rfl, hes⟩
  | any =>
      refine plain nofun nofun ((connective_from .any).mono ?_)
      rintro _ ⟨es, rfl, hes⟩
      exact ⟨rfl, hes⟩
  | globalState => exact plain nofun nofun globalState_plain
  | within => exact plain nofun nofun within_plain
  | distance => exact plain nofun nofun distance_plain

theorem form_assembled (f : SpecialForm) (name : String) :
    Ensures (fun e => e.form? = some f ∧
      Assembled (FromOperands args) s.scope e) (form f name s args) := by
  by_cases hf : f = .comparison
  · subst hf
    refine comparison_narrows.mono fun e ⟨hform, hchildren⟩ => ⟨hform, ?_⟩
    refine .plain (by simp [hform]) (by simp [hform]) fun c hc => ?_
    rcases hchildren c hc with hc | ⟨ty, b, rfl, -, hb⟩
    · exact .operand hc
    · exact .assertion (.operand hb)
  · exact (form_takes hf name).mono fun e ⟨hform, he⟩ =>
      ⟨hform, he.mono fun _ _ => .operand⟩

/-- An application makes a node out of the operands after its head, and the
kind of the node is the form that the registry has for the head, if it has
one. -/
theorem application_assembled (r : Registry) {head : Operand} :
    Ensures (fun e => Assembled (FromOperands args) s.scope e ∧
        ∃ name, head.raw = .string name ∧ ∀ f, e.form? = some f →
          ∃ name', r.lookup name = some (.special name' f))
      (application r s (head :: args)) := by
  unfold application
  simp only
  split
  · next name hname =>
      split
      · next name' f hlookup =>
          refine (form_assembled f name').mono ?_
          rintro e ⟨hform, he⟩
          refine ⟨he, name, hname, fun f' hf' => ⟨name', ?_⟩⟩
          obtain rfl := Option.some.inj (hform.symm.trans hf')
          exact hlookup
      · refine (compound_plain _).mono ?_
        rintro e ⟨hform, hchildren⟩
        refine ⟨.plain (by simp [hform]) (by simp [hform]) fun c hc =>
          .operand (hchildren c hc), name, hname, fun f hf => ?_⟩
        rw [hform] at hf
        cases hf
      · exact .failAt
  · exact .failAt

end Compile

/-! ## Documents -/

namespace Compiler

open Compile

/-- A property of what documents compile to in a scope that narrowing does not
lose, that values have, and that an application has if its operands do. -/
structure Hereditary (r : Registry) (Q : Json → Scope → Expr → Prop) :
    Prop where
  literal : ∀ raw scope ty v, Q raw scope (.literal ty v)
  assertion : ∀ raw scope ty e, Q raw scope e → Q raw scope (.assertion ty [e])
  coercion : ∀ raw scope ty e, Q raw scope e → Q raw scope (.coercion ty [e])
  application : ∀ name raws scope e,
    Assembled (fun scope c => ∃ raw ∈ raws, Q raw scope c) scope e →
    (∀ f, e.form? = some f →
      ∃ name', r.lookup name = some (.special name' f)) →
    Q (.array (.string name :: raws)) scope e

variable {c : Compiler} {Q : Json → Scope → Expr → Prop}

section Finish

variable {s : Site} {raw : Json} {e : Expr} (hQ : Hereditary c.registry Q)
include hQ

theorem narrow_inherits (how : Narrowing) (ty : Ty) (h : Q raw s.scope e) :
    Q raw s.scope (narrow how ty e) := by
  cases how with
  | assert => exact hQ.assertion _ _ _ _ h
  | coerce =>
      simp only [narrow]
      split
      · exact hQ.coercion _ _ _ _ h
      · exact hQ.assertion _ _ _ _ h
  | _ => exact h

theorem conform_inherits (how : Option Narrowing) (h : Q raw s.scope e) :
    Ensures (Q raw s.scope) (conform s how e) := by
  unfold conform
  split
  · exact .pure h
  · split
    · exact .pure (narrow_inherits hQ _ _ h)
    · split
      · exact .pure (narrow_inherits hQ _ _ h)
      · split
        · exact .pure h
        · exact .fail

theorem settle_inherits (folding : Bool) (h : Q raw s.scope e) :
    Ensures (Q raw s.scope) (settle folding s e) := by
  unfold settle
  split
  · split
    · exact .pure (hQ.literal _ _ _ _)
    · exact .fail
  · exact .pure h

theorem finish_inherits (folding : Bool) (how : Option Narrowing)
    (h : Q raw s.scope e) :
    Ensures (Q raw s.scope) (finish folding s how e) :=
  .bind (conform_inherits hQ how h) fun _ he => settle_inherits hQ folding he

end Finish

/-- What comes from operands that have the property has it. -/
theorem inherits_of_fromOperands (hQ : Hereditary c.registry Q)
    {raws : List Json} {os : List Operand} {scope : Scope} {e : Expr}
    (hos : ∀ o ∈ os, o.raw ∈ raws ∧ ∀ (s : Site) (how : Option Narrowing),
      Ensures (Q o.raw s.scope) (o.compile s how))
    (h : FromOperands os scope e) : ∃ raw ∈ raws, Q raw scope e := by
  induction h with
  | operand h =>
      obtain ⟨o, ho, s, how, rfl, he⟩ := h
      obtain ⟨hraw, hcompile⟩ := hos o ho
      exact ⟨o.raw, hraw, hcompile s how _ he⟩
  | assertion _ ih =>
      obtain ⟨raw, hraw, he⟩ := ih
      exact ⟨raw, hraw, hQ.assertion _ _ _ _ he⟩

mutual

/-- Whatever a document compiles to has every hereditary property. -/
theorem compile_inherits (hQ : Hereditary c.registry Q) (raw : Json) (s : Site)
    (how : Option Narrowing) :
    Ensures (Q raw s.scope) (c.compile raw s how) := by
  match raw with
  | .array [] =>
      rw [compile, operands]
      exact .bind (Q := fun _ => False) .fail nofun
  | .array (head :: raws) =>
      rw [compile, operands]
      refine .bind (application_assembled c.registry) ?_
      rintro e ⟨he, name, rfl, hform⟩
      have hargs := operands_inherit hQ raws
      refine finish_inherits hQ _ _ (hQ.application _ _ _ _ ?_ hform)
      exact he.mono fun _ _ => inherits_of_fromOperands hQ hargs
  | .object _ =>
      rw [compile]
      exact .fail
  | .null | .boolean _ | .number _ | .string _ =>
      rw [compile]
      exact finish_inherits hQ _ _ (hQ.literal _ _ _ _)

theorem operands_inherit (hQ : Hereditary c.registry Q) (raws : List Json) :
    ∀ o ∈ c.operands raws, o.raw ∈ raws ∧
      ∀ (s : Site) (how : Option Narrowing),
        Ensures (Q o.raw s.scope) (o.compile s how) := by
  match raws with
  | [] =>
      rw [operands]
      exact nofun
  | raw :: raws =>
      rw [operands]
      refine List.forall_mem_cons.2 ⟨⟨List.mem_cons_self, ?_⟩, fun o ho => ?_⟩
      · exact compile_inherits hQ raw
      · obtain ⟨hraw, hcompile⟩ := operands_inherit hQ raws o ho
        exact ⟨List.mem_cons_of_mem _ hraw, hcompile⟩

end

end Compiler

end MapStyle
