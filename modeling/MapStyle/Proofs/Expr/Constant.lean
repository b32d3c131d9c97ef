import MapStyle.Expr.Analysis
import MapStyle.Proofs.Expr.Alike

/-!
# Constants do not depend on the context

An expression that is constant by `Expr.isConstant` has one outcome in all
contexts, which is why it can be evaluated ahead of time. The analysis asks
operators what they declare to read, so the declaration has to be complete:
`Primitive.apply_congr` says that a primitive tells two contexts apart only by
the inputs that it declares.
-/

namespace MapStyle

/-- Whether two contexts agree on an input. -/
def Context.AgreeOn (ctx ctx' : Context) : Parameter → Prop
  | .zoom => ctx.zoom = ctx'.zoom
  | .feature => ctx.feature = ctx'.feature
  | .featureState => ctx.featureState = ctx'.featureState
  | .heatmapDensity => ctx.heatmapDensity = ctx'.heatmapDensity
  | .lineProgress => ctx.lineProgress = ctx'.lineProgress
  | .accumulated => ctx.accumulated = ctx'.accumulated

/-- A primitive depends on no input but those that it declares to read. -/
theorem Primitive.apply_congr {primitive : Primitive} {ctx ctx' : Context}
    (h : ∀ p ∈ primitive.reads, ctx.AgreeOn ctx' p) (os : List Outcome) :
    primitive.apply ctx os = primitive.apply ctx' os := by
  unfold apply
  split
  all_goals try rfl
  all_goals
    first
    | have hfeature : ctx.feature = ctx'.feature := h .feature List.mem_cons_self
      simp only [testProperty, Context.property?, Context.id, Context.kind?,
        hfeature]
    | have hstate : ctx.featureState = ctx'.featureState :=
        h .featureState List.mem_cons_self
      simp only [Context.stateValue, hstate]
    | have hzoom : ctx.zoom = ctx'.zoom := h .zoom List.mem_cons_self
      rw [hzoom]
    | have hdensity : ctx.heatmapDensity = ctx'.heatmapDensity :=
        h .heatmapDensity List.mem_cons_self
      rw [hdensity]
    | have hprogress : ctx.lineProgress = ctx'.lineProgress :=
        h .lineProgress List.mem_cons_self
      rw [hprogress]
    | have haccumulated : ctx.accumulated = ctx'.accumulated :=
        h .accumulated List.mem_cons_self
      rw [haccumulated]

namespace Expr

variable {e : Expr}

/-! ## What a constant consists of -/

theorem nodes_eq (e : Expr) :
    e.nodes = e :: e.children.flatMap nodes := by
  rw [nodes, fold_eq, List.flatMap_def]

theorem mem_nodes_self (e : Expr) : e ∈ e.nodes := by
  rw [nodes_eq]
  exact List.mem_cons_self

/-- A node that reads nothing is no operator with an input. -/
theorem reads_of_readsNothing {name : String} {ty : Ty}
    {primitive : Primitive} {impure : Bool} {args : List Expr}
    (h : (compound name ty primitive impure args).readsNothing = true) :
    primitive.reads = [] := by
  have hself := mem_nodes_self (compound name ty primitive impure args)
  obtain ⟨hfeature, hglobals⟩ := Bool.and_eq_true_iff.1 h
  have hfeature := List.all_eq_true.1 hfeature _ hself
  have hglobals := List.all_eq_true.1 hglobals _ hself
  cases primitive <;>
    first | rfl | (cases hfeature; done) | cases hglobals

theorem allConstant_iff {es : List Expr} :
    allConstant es = true ↔ ∀ e ∈ es, e.isConstant = true := by
  induction es with
  | nil => simp [allConstant]
  | cons e es ih => simp [allConstant, ih]

theorem isConstant_of_isLiteral (h : e.isLiteral = true) :
    e.isConstant = true := by
  cases e with
  | literal ty v => rfl
  | _ => cases h

/-- The operands of a constant are constants, and the node itself reads
nothing that an operator could read. -/
theorem operands_of_isConstant (h : e.isConstant = true) :
    (∀ c ∈ e.operands, c.isConstant = true) ∧
      ((∃ name bound, e = .reference name bound) ∨
        (e.isFoldable = true ∧ e.readsNothing = true)) := by
  have literals {e : Expr} (h : (e.isFoldable && e.children.all isLiteral &&
      e.readsNothing) = true) : (∀ c ∈ e.children, c.isConstant = true) ∧
        (e.isFoldable = true ∧ e.readsNothing = true) := by
    simp only [Bool.and_eq_true, List.all_eq_true] at h
    exact ⟨fun c hc => isConstant_of_isLiteral (h.1.2 c hc), h.1.1, h.2⟩
  cases e with
  | reference name bound =>
      rw [isConstant] at h
      exact ⟨List.forall_mem_singleton.2 h, .inl ⟨name, bound, rfl⟩⟩
  | assertion ty args | coercion ty args =>
      rw [isConstant] at h
      obtain ⟨hargs, hreads⟩ := Bool.and_eq_true_iff.1 h
      exact ⟨allConstant_iff.1 hargs, .inr ⟨rfl, hreads⟩⟩
  | _ => exact (literals h).imp_right .inr

/-- The parts of a constant are constants. -/
theorem isConstant_of_partOf {p : Expr} (h : e.isConstant = true)
    (hp : p.PartOf e) : p.isConstant = true := by
  induction hp with
  | refl => exact h
  | operand hc _ ih => exact ih ((operands_of_isConstant h).1 _ hc)

/-! ## What follows -/

/-- No context matters to a constant node. -/
theorem readsAlike_of_isConstant (h : e.isConstant = true)
    (ctx ctx' : Context) : e.ReadsAlike ctx ctx' := by
  rcases (operands_of_isConstant h).2 with ⟨name, bound, rfl⟩ | ⟨hfold, hreads⟩
  · trivial
  · cases e with
    | globalState | within | distance => cases hfold
    | compound name ty primitive impure args =>
        refine Primitive.apply_congr fun p hp => ?_
        rw [reads_of_readsNothing hreads] at hp
        cases hp
    | _ => trivial

/-- A constant has one outcome in all contexts. -/
theorem evaluate_of_isConstant (h : e.isConstant = true)
    (ctx ctx' : Context) : e.evaluate ctx = e.evaluate ctx' :=
  evaluate_congr fun _ hp =>
    readsAlike_of_isConstant (isConstant_of_partOf h hp) ctx ctx'

end Expr

end MapStyle
