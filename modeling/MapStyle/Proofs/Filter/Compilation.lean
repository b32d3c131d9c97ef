import MapStyle.Filter.FeatureFilter
import MapStyle.Proofs.Parse.Compiler

/-!
# Compiled filters

A filter is compiled where a boolean is expected and nothing is in scope, after
it has been brought into the grammar of expressions. What it compiles to there
is what it compiles to as an operand of another filter, and has booleans for its
values; the filter passes a feature for which the value is true.
-/

namespace MapStyle

namespace Filter

open Compiler

/-- The compiler that filters go through. -/
abbrev compiler : Compiler := { registry := .standard }

/-- Where a filter stands. -/
abbrev root : Site := { expected := some .boolean }

/-- What a document compiles to where a filter is expected. -/
def CompilesTo (raw : Json) (e : Expr) : Prop :=
  compiler.compile raw root none = .ok e

namespace CompilesTo

variable {raw : Json} {e : Expr}

theorem compile (h : CompilesTo raw e) (path : List Nat) :
    compiler.compile raw { root with path } none = .ok e :=
  compile_of_site Registry.standard_lawful (by rfl) (by rfl) h

theorem of_compile {path : List Nat}
    (h : compiler.compile raw { root with path } none = .ok e) :
    CompilesTo raw e :=
  compile_of_site Registry.standard_lawful (by rfl) (by rfl) h

/-- A filter has no other values than booleans. -/
theorem eq_boolean (h : CompilesTo raw e) {ctx : Context} {v : Value}
    (hv : e.evaluate ctx = .ok v) : ∃ b, v = .boolean b := by
  obtain ⟨_, -, hunfolds, hadmits⟩ :=
    compile_unfolds Registry.standard_lawful h
  have haccepts := (hadmits .boolean rfl).resolve_right nofun
  have hvalue : Ty.boolean.accepts v.type = true := by
    rcases hunfolds.typed.sound Registry.standard_lawful v hv with
      hty | ⟨hnumber, -⟩
    · exact Value.accepts_trans haccepts hty
    · rw [hnumber] at haccepts
      cases haccepts
  cases v with
  | boolean b => exact ⟨b, rfl⟩
  | _ => simp [Value.type, Ty.accepts, Ty.sameKind] at hvalue

end CompilesTo

end Filter

namespace FeatureFilter

open MapStyle.Filter

/-- The filter that a document makes together with the tree that it compiles
to. -/
def ofTree (raw : Json) (e : Expr) : FeatureFilter :=
  { expression :=
      { expression := e, fallback := .boolean false, allowed := none }
    usesGeometry := Filter.usesGeometry (toExpression raw)
    globalNames := e.globalNames }

variable {raw : Json} {f : FeatureFilter} {e : Expr} {ctx : Context}

theorem compile_iff : compile .standard raw = .ok f ↔
    ∃ e, CompilesTo (toExpression raw) e ∧ f = ofTree raw e := by
  constructor
  · intro h
    obtain ⟨style, hstyle, h⟩ := ok_of_bind h
    rw [StyleExpression.compile_eq] at hstyle
    obtain ⟨e, he, hstyle⟩ := ok_of_bind hstyle
    obtain rfl := ok_of_pure hstyle
    obtain rfl := ok_of_pure h
    exact ⟨e, he, rfl⟩
  · rintro ⟨e, he, rfl⟩
    have hstyle : StyleExpression.compile .standard (some specification)
        (toExpression raw) = .ok (ofTree raw e).expression := by
      rw [StyleExpression.compile_eq]
      show compiler.compile (toExpression raw) root none >>= _ = _
      rw [he]
      rfl
    rw [compile, hstyle]
    rfl

/-- The outcome of a compiled filter is that of its tree. -/
theorem evaluate_ofTree : (ofTree raw e).expression.evaluate ctx =
    e.evaluate ctx := by
  show e.evaluate ctx >>= _ = _
  cases e.evaluate ctx with
  | error failure => rfl
  | ok v => cases v <;> rfl

theorem passes_ofTree {b : Bool} (h : e.evaluate ctx = .ok (.boolean b)) :
    (ofTree raw e).passes ctx = b := by
  rw [passes, StyleExpression.render, evaluate_ofTree, h]

end FeatureFilter

end MapStyle
