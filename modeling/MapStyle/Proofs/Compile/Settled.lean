import MapStyle.Proofs.Compile.Dependence
import MapStyle.Proofs.Compile.Documents
import MapStyle.Proofs.Compile.Parametric

/-!
# The constants that folding leaves

Whatever a document compiles to is replaced by its value if it is constant. So a
part of a tree that comes from a document of its own is no constant, unless it
is a literal already. But an order asserts an operand of unknown type to be of
the type of the other one, and this assertion comes from no document: it is put
around the operand after that has been folded, and nobody looks at it again. If
the operand is a literal, a constant is left (`isConstant_iff_settled`), and if
the literal is of another type, a failure that could have been found.
-/

namespace MapStyle

namespace Expr

variable {e : Expr}

/-- Whether the tree is a literal if it is constant. -/
def Settled (e : Expr) : Prop :=
  e.isConstant = true → e.isLiteral = true

/-- A node has settled trees below it, apart from assertions that it puts around
them if it is an order. -/
def TakesSettled (e : Expr) : Prop :=
  ∀ c ∈ e.children, c.Settled ∨
    ∃ ty b, c = .assertion ty [b] ∧ e.Narrows ty b ∧ b.Settled

/-- A tree that is settled, at the root as well as below its nodes. -/
structure FullySettled (e : Expr) : Prop where
  root : e.Settled
  nodes : ∀ n ∈ e.nodes, n.TakesSettled

theorem settled_of_not_isConstant (h : e.isConstant = false) : e.Settled := by
  intro hconst
  rw [h] at hconst
  cases hconst

theorem fullySettled_literal (ty : Ty) (v : Value) :
    FullySettled (.literal ty v) where
  root _ := rfl
  nodes := NodeLaw.forall_nodes.2 ⟨nofun, nofun⟩

theorem readsNothing_iff : e.readsNothing = true ↔ ∀ n ∈ e.nodes,
    n.readsAny [.feature, .featureState] = false ∧
      n.looksAtGeometry = false ∧ n.readsAny Parameter.globals = false := by
  simp only [readsNothing, ignoresFeature, ignores, Bool.and_eq_true,
    List.all_eq_true, Bool.not_eq_true']
  exact ⟨fun h n hn => ⟨(h.1 n hn).1, (h.1 n hn).2, h.2 n hn⟩,
    fun h => ⟨fun n hn => ⟨(h n hn).1, (h n hn).2.1⟩, fun n hn => (h n hn).2.2⟩⟩

theorem readsNothing_of_isConstant (h : e.isConstant = true) :
    e.readsNothing = true := by
  rcases (operands_of_isConstant h).2 with ⟨name, bound, rfl⟩ | ⟨-, hreads⟩
  · rfl
  · exact hreads

/-- Narrowing makes constants of constants. -/
theorem isConstant_narrowed {a : Expr} {ty : Ty} (h : e.isConstant = true)
    (ha : a = .assertion ty [e] ∨ a = .coercion ty [e]) :
    a.isConstant = true := by
  have hargs : allConstant [e] = true :=
    allConstant_iff.2 (List.forall_mem_singleton.2 h)
  have hbelow := readsNothing_iff.1 (readsNothing_of_isConstant h)
  have hreads : a.readsNothing = true := by
    refine readsNothing_iff.2 (NodeLaw.forall_nodes.2 ?_)
    rcases ha with rfl | rfl <;>
      exact ⟨⟨rfl, rfl, rfl⟩, List.forall_mem_singleton.2 hbelow⟩
  rcases ha with rfl | rfl
  · rw [isConstant, hargs, hreads]
    rfl
  · rw [isConstant, hargs, hreads]
    rfl

end Expr

namespace Compile

variable {s : Site} {args : List Operand} {e : Expr}

/-! ## Where a document stands -/

/-- Folding looks at what an expression has been narrowed to. If that is no
constant, the expression was none before. -/
theorem finish_settled {how : Option Narrowing}
    (he : ∀ n ∈ e.nodes, n.TakesSettled) :
    Ensures Expr.FullySettled (finish true s how e) := by
  refine .bind (Q := fun a => a.isConstant = false →
    ∀ n ∈ a.nodes, n.TakesSettled) ?_ fun a ha => ?_
  · intro a hconform hconst
    rcases conform_narrows hconform with rfl | ⟨ty, -, -, hnarrowed⟩
    · exact he
    · have hsettled : e.Settled := fun h => by
        rw [Expr.isConstant_narrowed h hnarrowed] at hconst
        cases hconst
      have hchildren : a.children = [e] := by
        rcases hnarrowed with rfl | rfl <;> rfl
      refine NodeLaw.forall_nodes.2 ?_
      rw [Expr.TakesSettled, hchildren]
      exact ⟨List.forall_mem_singleton.2 (.inl hsettled),
        List.forall_mem_singleton.2 he⟩
  · unfold settle
    split
    · split
      · exact .pure (Expr.fullySettled_literal _ _)
      · exact .fail
    · next hfold =>
        refine .pure ?_
        cases hliteral : a.isLiteral with
        | true =>
            cases a with
            | literal ty v => exact Expr.fullySettled_literal ty v
            | _ => cases hliteral
        | false =>
            have hconst : a.isConstant = false := by
              simpa [hliteral] using hfold
            exact ⟨Expr.settled_of_not_isConstant hconst, ha hconst⟩

/-! ## Applications -/

/-- The children of a node are what the operands of the application compile to,
apart from those that an order asserts. -/
theorem application_takes (r : Registry) {head : Operand} :
    Ensures (fun e => ∀ c ∈ e.children, (∃ scope, FromOperand args scope c) ∨
        ∃ ty b, c = .assertion ty [b] ∧ e.Narrows ty b ∧
          ∃ scope, FromOperand args scope b)
      (application r s (head :: args)) := by
  unfold application
  simp only
  split
  · split
    · next f _ =>
        by_cases hf : f = .comparison
        · subst hf
          refine comparison_narrows.mono fun e ⟨_, hchildren⟩ c hc => ?_
          rcases hchildren c hc with hc | ⟨ty, b, hc, hnarrows, hb⟩
          · exact .inl ⟨_, hc⟩
          · exact .inr ⟨ty, b, hc, hnarrows, _, hb⟩
        · refine (form_takes hf _).mono fun e ⟨_, he⟩ c hc => ?_
          exact .inl (he.exists_scope hc)
    · refine (compound_plain _).mono fun e ⟨_, hchildren⟩ c hc => ?_
      exact .inl ⟨_, hchildren c hc⟩
    · exact .failAt
  · exact .failAt

/-- The nodes of an application take settled trees if its operands compile to
settled ones. -/
theorem application_settled (r : Registry)
    (hargs : ∀ o ∈ args, ∀ (s : Site) (how : Option Narrowing),
      Ensures Expr.FullySettled (o.compile s how)) :
    Ensures (fun e => ∀ n ∈ e.nodes, n.TakesSettled)
      (application r s args) := by
  cases args with
  | nil => exact .fail
  | cons head args =>
      have hfrom {scope : Scope} {c : Expr} (hc : FromOperand args scope c) :
          c.FullySettled := by
        obtain ⟨o, ho, s, how, -, hc⟩ := hc
        exact (List.forall_mem_cons.1 hargs).2 o ho s how c hc
      refine (application_takes r).mono fun e he => ?_
      refine NodeLaw.forall_nodes.2 ⟨fun c hc => ?_, fun c hc => ?_⟩
      · rcases he c hc with ⟨scope, hc⟩ | ⟨ty, b, hc, hnarrows, scope, hb⟩
        · exact .inl (hfrom hc).root
        · exact .inr ⟨ty, b, hc, hnarrows, (hfrom hb).root⟩
      · rcases he c hc with ⟨scope, hc⟩ | ⟨ty, b, rfl, -, scope, hb⟩
        · exact (hfrom hc).nodes
        · exact NodeLaw.forall_nodes.2
            ⟨List.forall_mem_singleton.2 (.inl (hfrom hb).root),
              List.forall_mem_singleton.2 (hfrom hb).nodes⟩

end Compile

/-! ## Documents -/

/-- What a document compiles to is settled. -/
theorem Compiler.fullySettled_of_compile (r : Registry) (raw : Json) (s : Site)
    (how : Option Narrowing) :
    Ensures Expr.FullySettled (compile { registry := r } raw s how) := by
  refine Compiler.induction (c := { registry := r }) (P := fun o =>
    ∀ s how, Ensures Expr.FullySettled (o.compile s how))
    (fun raw s how => ?_) (fun fields s how => .fail)
    (fun raws hraws s how => ?_) raw s how
  · exact Compile.finish_settled (Expr.fullySettled_literal _ _).nodes
  · exact .bind (Compile.application_settled r hraws)
      fun e he => Compile.finish_settled he

namespace Expr

variable {e p : Expr}

/-- A node of a tree is the root or a child of a node. -/
theorem eq_or_child_of_mem_nodes (h : p ∈ e.nodes) :
    p = e ∨ ∃ n ∈ e.nodes, p ∈ n.children := by
  induction e using Expr.induction with
  | step e ih =>
      rw [nodes_eq] at h
      rcases List.mem_cons.1 h with rfl | h
      · exact .inl rfl
      · obtain ⟨c, hc, hp⟩ := List.mem_flatMap.1 h
        rcases ih c (mem_operands_of_mem_children hc) hp with rfl | ⟨n, hn, hp⟩
        · exact .inr ⟨e, mem_nodes_self e, hc⟩
        · exact .inr ⟨n, mem_nodes_of_child hc hn, hp⟩

/-- An assertion that a node of the tree, an order, has put around a literal of
unknown type. -/
def LeftConstant (e p : Expr) : Prop :=
  ∃ (ty : Ty) (v : Value) (n : Expr), p = .assertion ty [.literal .value v] ∧
    n.PartOf e ∧ n.Narrows ty (.literal .value v)

theorem Narrows.type_eq {ty : Ty} {n b : Expr} (h : n.Narrows ty b) :
    b.type = .value := by
  cases h with
  | lhs _ hb | rhs _ hb => exact hb

/-- The constants of a settled tree. -/
theorem FullySettled.isConstant_iff (h : e.FullySettled) (hp : p ∈ e.nodes) :
    p.isConstant = true ↔ p.isLiteral = true ∨ e.LeftConstant p := by
  constructor
  · intro hconst
    rcases eq_or_child_of_mem_nodes hp with rfl | ⟨n, hn, hp⟩
    · exact .inl (h.root hconst)
    · rcases h.nodes n hn p hp with hsettled | ⟨ty, b, rfl, hnarrows, hb⟩
      · exact .inl (hsettled hconst)
      · have hb := hb ((operands_of_isConstant hconst).1 b List.mem_cons_self)
        cases b with
        | literal ty' v =>
            obtain rfl : ty' = .value := hnarrows.type_eq
            exact .inr ⟨ty, v, n, rfl, partOf_of_mem_nodes hn, hnarrows⟩
        | _ => cases hb
  · rintro (hliteral | ⟨ty, v, n, rfl, -, -⟩)
    · exact isConstant_of_isLiteral hliteral
    · rfl

end Expr

namespace StyleExpression

variable {spec : Option PropertySpecification} {raw : Json}
  {e : StyleExpression} {p : Expr}

/-- The constants in a compiled tree are its literals, which never fail, and the
assertions that orders put around literals of unknown type. -/
theorem isConstant_iff_settled (h : compile .standard spec raw = .ok e)
    (hp : p.PartOf e.expression) :
    (p.isConstant = true ↔
      p.isLiteral = true ∨ e.expression.LeftConstant p) ∧
    (p.isConstant = true → (∃ ctx failure, p.evaluate ctx = .error failure) →
      e.expression.LeftConstant p) := by
  have hsettled := Compiler.fullySettled_of_compile _ _ _ _ _
    (expression_of_compile h)
  have hiff := hsettled.isConstant_iff ((scoped_of_compile h).mem_nodes hp)
  refine ⟨hiff, fun hconst ⟨ctx, failure, hfailure⟩ => ?_⟩
  refine (hiff.1 hconst).resolve_left fun hliteral => ?_
  cases p with
  | literal => cases hfailure
  | _ => cases hliteral

/-- `["<", ["at", 1, ["literal", [1, "a"]]], 2]`, which compares a text with a
number. -/
def orderDocument : Json :=
  .array [.string "<",
    .array [.string "at", .number (.integer 1), .array [.string "literal",
      .array [.number (.integer 1), .string "a"]]],
    .number (.integer 2)]

/-- The text, asserted to be a number. -/
def assertedText : Expr :=
  .assertion .number [.literal .value (.string "a")]

/-- What the document compiles to. -/
def orderExpression : StyleExpression :=
  { expression := .comparison .boolean .lt false assertedText
      (.literal .number (.number (Json.Number.integer 2).toFloat))
    fallback := .null
    allowed := none }

theorem compile_orderDocument :
    compile .standard none orderDocument = .ok orderExpression := by
  rfl

theorem partOf_orderExpression :
    assertedText.PartOf orderExpression.expression :=
  .operand List.mem_cons_self .refl

theorem isConstant_iff_settled_order :
    compile .standard none orderDocument = .ok orderExpression ∧
      assertedText.PartOf orderExpression.expression ∧
      (assertedText.isConstant = true ↔ assertedText.isLiteral = true ∨
        orderExpression.expression.LeftConstant assertedText) ∧
      assertedText.isConstant = true ∧
      (∃ ctx failure, assertedText.evaluate ctx = .error failure) ∧
      orderExpression.expression.LeftConstant assertedText := by
  obtain ⟨hiff, hfails⟩ :=
    isConstant_iff_settled compile_orderDocument partOf_orderExpression
  have hfailure : ∃ ctx failure, assertedText.evaluate ctx = .error failure :=
    ⟨{}, _, rfl⟩
  exact ⟨compile_orderDocument, partOf_orderExpression, hiff, rfl, hfailure,
    hfails rfl hfailure⟩

/-- The assertion is a constant that is left in the tree, and fails in every
context. -/
theorem constant_left_in_order :
    ∃ e, compile .standard none orderDocument = .ok e ∧
      (∃ n ∈ e.expression.nodes, n.isConstant = true ∧ n.isLiteral = false) ∧
      ∀ ctx, ∃ failure, e.expression.evaluate ctx = .error failure := by
  refine ⟨orderExpression, compile_orderDocument, ?_, fun ctx => ⟨_, rfl⟩⟩
  refine ⟨assertedText, ?_, rfl, rfl⟩
  exact Expr.mem_nodes_of_child List.mem_cons_self (Expr.mem_nodes_self _)

end StyleExpression

end MapStyle
