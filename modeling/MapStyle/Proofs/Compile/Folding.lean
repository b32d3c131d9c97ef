import MapStyle.Proofs.Compile.Parametric
import MapStyle.Proofs.Expr.Constant
import MapStyle.Proofs.Typing.Evaluation

/-!
# Folding constants

A compiler that folds constants and one that does not are run in lockstep. The
relation between their trees is that of meaning: one type, one outcome in every
context. It carries the typing of the first tree along, because a folded node
claims the type of the expression that it replaces, and only the soundness of
evaluation says that its value is of that type.

Folding can make compiling fail, when a constant has no value, but never makes
it succeed; hence the direction of the statements.
-/

namespace MapStyle

namespace Expr

/-- A typed tree and one of the same type and the same outcomes. -/
structure Unfolds (r : Registry) (e e' : Expr) : Prop where
  type_eq : e.type = e'.type
  evaluate_eq : ∀ ctx, e.evaluate ctx = e'.evaluate ctx
  typed : e.Typed r

theorem unfolds_compositional (r : Registry) :
    Compositional r (Unfolds r) where
  type_eq _ _ h := h.type_eq
  node e e' h hobeys := by
    refine ⟨h.type_eq fun _ _ h => h.type_eq, fun ctx => ?_, ?_⟩
    · exact h.evaluate_eq (fun _ _ h => ⟨h.type_eq, h.evaluate_eq ctx⟩)
        (readsAlike_self ctx e)
    · have htyped := (List.forall₂_and_left _ _).1
        (h.forall₂_operands.imp fun _ _ h => ⟨h.typed, h⟩)
      exact typed_iff.2 ⟨hobeys, htyped.1⟩

/-- A constant has no part that is partial. -/
theorem isPartial_of_isConstant {e : Expr} (h : e.isConstant = true)
    {p : Expr} (hp : p.PartOf e) : p.isPartial = false := by
  rcases (operands_of_isConstant (isConstant_of_partOf h hp)).2 with
    ⟨name, bound, rfl⟩ | ⟨hfold, hreads⟩
  · rfl
  · cases p with
    | distance => cases hfold
    | compound name ty primitive impure args =>
        have hreads := reads_of_readsNothing hreads
        cases primitive <;> first | rfl | cases hreads
    | _ => rfl

end Expr

namespace Compile

/-- Folding does not change the outcome of an expression. -/
theorem evaluate_of_settle {folding : Bool} {s : Site} {e a : Expr}
    (h : settle folding s e = .ok a) (ctx : Context) :
    a.evaluate ctx = e.evaluate ctx := by
  unfold settle at h
  split at h
  · next hfold =>
      have hconst : e.isConstant = true := (Bool.and_eq_true_iff.1 hfold).2
      rw [Expr.evaluate_of_isConstant hconst ctx {}]
      split at h
      · next hv =>
          cases h
          rw [hv]
          rfl
      · cases h
  · obtain rfl := ok_of_pure h
    rfl

/-- Folding fails only for a constant that has no value. -/
theorem exists_settle {e : Expr}
    (h : e.isConstant = true → ∃ v, e.evaluate {} = .ok v) (folding : Bool)
    (s : Site) : ∃ a, settle folding s e = .ok a := by
  unfold settle
  split
  · next hfold =>
      obtain ⟨v, hv⟩ := h (Bool.and_eq_true_iff.1 hfold).2
      rw [hv]
      exact ⟨_, rfl⟩
  · exact ⟨e, rfl⟩

/-- A folded node is typed because the value of a typed constant is of its
type. -/
theorem typed_of_settle {r : Registry} (hr : r.Lawful) {folding : Bool}
    {s : Site} {e a : Expr} (he : e.Typed r)
    (h : settle folding s e = .ok a) : a.Typed r := by
  unfold settle at h
  split at h
  · next hfold =>
      have hconst : e.isConstant = true := (Bool.and_eq_true_iff.1 hfold).2
      split at h
      · next hv =>
          cases h
          refine Expr.typed_iff.2 ⟨?_, fun _ hc => absurd hc List.not_mem_nil⟩
          exact he.accepts hr
            (fun p hp => Expr.isPartial_of_isConstant hconst hp) hv
      · cases h
  · obtain rfl := ok_of_pure h
    exact he

theorem settle_unfolds {r : Registry} (hr : r.Lawful) :
    SettleRespects (Expr.Unfolds r) true false := by
  intro s s' e e' h a ha
  refine ⟨e', rfl, ?_, fun ctx => ?_, typed_of_settle hr h.typed ha⟩
  · rw [type_of_settle ha, h.type_eq]
  · rw [evaluate_of_settle ha ctx, h.evaluate_eq ctx]

end Compile

namespace Compiler

variable {r : Registry} {raw : Json} {expected : Option Ty}
  {how : Option Narrowing} {e : Expr}

/-- What a document compiles to with folding is typed, of a type that is
admitted, and unfolds to what it compiles to without folding. -/
theorem compile_unfolds (hr : r.Lawful)
    (h : compile { registry := r } raw { expected } how = .ok e) :
    ∃ e', compile { registry := r, folding := false } raw { expected } how =
        .ok e' ∧
      e.Unfolds r e' ∧ Compile.Admits expected how e.type :=
  compile_follows { registry := r } { registry := r, folding := false } rfl hr
    (Expr.unfolds_compositional r) (Compile.settle_unfolds hr) raw
    ⟨rfl, .nil⟩ e h

/-- Folding constants preserves meaning: without it a document compiles too, to
a tree of the same type that has the same outcome, a value or a failure, in
every context. -/
theorem evaluate_without_folding
    (h : compile { registry := .standard } raw { expected } how = .ok e) :
    ∃ e', compile { registry := .standard, folding := false } raw
        { expected } how = .ok e' ∧
      e'.type = e.type ∧ ∀ ctx, e'.evaluate ctx = e.evaluate ctx := by
  obtain ⟨e', he', hunfolds, -⟩ :=
    compile_unfolds Registry.standard_lawful h
  exact ⟨e', he', hunfolds.type_eq.symm, fun ctx =>
    (hunfolds.evaluate_eq ctx).symm⟩

/-- `["all", ["has", "x"], ["!", false]]`, the second operand of which is
folded to `true`. -/
theorem evaluate_without_folding_all_not :
    ∃ e, compile { registry := .standard }
        (.array [.string "all", .array [.string "has", .string "x"],
          .array [.string "!", .boolean false]])
        { expected := some .boolean } none = .ok e ∧
      ∃ e', compile { registry := .standard, folding := false }
          (.array [.string "all", .array [.string "has", .string "x"],
            .array [.string "!", .boolean false]])
          { expected := some .boolean } none = .ok e' ∧
        e'.type = e.type ∧ ∀ ctx, e'.evaluate ctx = e.evaluate ctx :=
  ⟨.all .boolean
    [.compound "has" .boolean .hasProperty false
      [.literal .string (.string "x")],
     .literal .boolean (.boolean true)],
    by rfl, evaluate_without_folding (by rfl)⟩

end Compiler

end MapStyle
