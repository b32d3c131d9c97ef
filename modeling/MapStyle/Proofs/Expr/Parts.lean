import MapStyle.Expr.Basic

/-!
# The parts of a tree, bound expressions included

`Expr.children` stops at references, because what a name is bound to belongs
to the binding. Evaluation does not stop there: a reference carries its bound
expression and has its value. Claims about evaluation therefore speak of the
`operands` of a node, which are its children or, for a reference, the bound
expression, and of the `PartOf` relation that they generate.

`Expr.induction` is the induction principle that goes with it. It replaces the
recursor of the type, whose lists, options and pairs of operands would each
need a motive of their own.
-/

namespace MapStyle.Expr

/-- The expressions that the value of a node is made of. -/
def operands : Expr → List Expr
  | .reference _ bound => [bound]
  | e => e.children

theorem sizeOf_lt_of_mem_operands {c e : Expr} (h : c ∈ e.operands) :
    sizeOf c < sizeOf e := by
  have second {α : Type} [SizeOf α] {ps : List (α × Expr)} {p : α × Expr}
      (hp : p ∈ ps) : sizeOf p.2 < sizeOf ps := by
    obtain ⟨a, e⟩ := p
    have hlt := List.sizeOf_lt_of_mem hp
    rw [Prod.mk.sizeOf_spec] at hlt
    show sizeOf e < sizeOf ps
    omega
  have present {o : Option Expr} (ho : c ∈ o.toList) :
      sizeOf c < sizeOf o := by
    cases o with
    | none => simp at ho
    | some e =>
        obtain rfl : c = e := by simpa using ho
        rw [Option.some.sizeOf_spec]
        omega
  cases e with
  | literal | globalState | within | distance =>
      simp [operands, children] at h
  | reference name bound =>
      obtain rfl : c = bound := by simpa [operands] using h
      rw [reference.sizeOf_spec]
      omega
  | assertion ty args | coercion ty args | coalesce ty args | all ty args
  | any ty args | compound name ty primitive impure args =>
      have hlt : sizeOf c < sizeOf args := List.sizeOf_lt_of_mem h
      simp only [assertion.sizeOf_spec, coercion.sizeOf_spec,
        coalesce.sizeOf_spec, all.sizeOf_spec, any.sizeOf_spec,
        compound.sizeOf_spec]
      omega
  | binding names body =>
      rw [binding.sizeOf_spec]
      simp only [operands, children, List.mem_append, List.mem_map,
        List.mem_singleton] at h
      rcases h with ⟨p, hp, rfl⟩ | rfl
      · have := second hp
        omega
      · omega
  | item ty lhs rhs | membership ty lhs rhs | comparison ty op untyped lhs rhs =>
      simp only [item.sizeOf_spec, membership.sizeOf_spec,
        comparison.sizeOf_spec]
      simp only [operands, children, List.mem_cons, List.not_mem_nil,
        or_false] at h
      rcases h with rfl | rfl <;> omega
  | length ty input =>
      obtain rfl : c = input := by simpa [operands, children] using h
      rw [length.sizeOf_spec]
      omega
  | position ty lhs rhs o | slice ty lhs rhs o =>
      simp only [position.sizeOf_spec, slice.sizeOf_spec]
      simp only [operands, children, List.mem_append, List.mem_cons,
        List.not_mem_nil, or_false] at h
      rcases h with (rfl | rfl) | ho
      · omega
      · omega
      · have := present ho
        omega
  | conditional ty branches otherwise =>
      rw [conditional.sizeOf_spec]
      simp only [operands, children, List.mem_append, List.mem_flatMap,
        List.mem_cons, List.not_mem_nil, or_false] at h
      rcases h with ⟨⟨test, output⟩, hp, hc⟩ | rfl
      · have hlt := List.sizeOf_lt_of_mem hp
        rw [Prod.mk.sizeOf_spec] at hlt
        rcases hc with rfl | rfl <;> omega
      · omega
  | selection ty inputTy input branches otherwise =>
      rw [selection.sizeOf_spec]
      simp only [operands, children, List.mem_append, List.mem_cons,
        List.mem_map, List.not_mem_nil, or_false] at h
      rcases h with (rfl | ⟨p, hp, rfl⟩) | rfl
      · omega
      · have := second hp
        omega
      · omega
  | step ty input stops | interpolate ty space kind input stops =>
      simp only [step.sizeOf_spec, interpolate.sizeOf_spec]
      simp only [operands, children, List.mem_cons, List.mem_map] at h
      rcases h with rfl | ⟨p, hp, rfl⟩
      · omega
      · have := second hp
        omega

/-- What holds of an expression whenever it holds of its operands holds of all
expressions. -/
theorem induction {P : Expr → Prop}
    (step : ∀ e, (∀ c ∈ e.operands, P c) → P e) (e : Expr) : P e :=
  step e fun c hc =>
    have := sizeOf_lt_of_mem_operands hc
    induction step c
termination_by sizeOf e

/-- The parts of an expression: itself and the parts of its operands. -/
inductive PartOf (p : Expr) : Expr → Prop where
  | refl : PartOf p p
  | operand {c e : Expr} (hc : c ∈ e.operands) (hp : PartOf p c) : PartOf p e

theorem PartOf.trans {p q e : Expr} (hpq : p.PartOf q) (hqe : q.PartOf e) :
    p.PartOf e := by
  induction hqe with
  | refl => exact hpq
  | operand hc _ ih => exact .operand hc ih

/-- A property of all parts is one of the node and of the parts of its
operands. -/
theorem forall_partOf {P : Expr → Prop} {e : Expr} :
    (∀ p, p.PartOf e → P p) ↔
      P e ∧ ∀ c ∈ e.operands, ∀ p, p.PartOf c → P p := by
  refine ⟨fun h => ⟨h e .refl, fun c hc p hp => h p (.operand hc hp)⟩, ?_⟩
  rintro ⟨he, hop⟩ p hp
  cases hp with
  | refl => exact he
  | operand hc hp => exact hop _ hc p hp

end MapStyle.Expr
