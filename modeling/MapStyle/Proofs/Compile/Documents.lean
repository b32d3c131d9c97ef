import MapStyle.Proofs.Compile.Assembly
import MapStyle.Proofs.Expr.Constant

/-!
# Induction on documents

The compiler recurses on documents through the operands that it makes of them.
What holds of literals, and of an application whenever it holds of the operands
that the application is made from, holds of every document. An operand is all
that an application sees of a part of the document, so properties of operands
are what the induction is about (`Compiler.induction`).

Most often the property is one of the single nodes that applications make. It
then holds of all nodes of a compiled tree (`Compiler.nodes_of_compile`).
-/

namespace MapStyle

namespace Compiler

variable (c : Compiler)

theorem operands_eq_map (raws : List Json) :
    c.operands raws = raws.map fun raw => ⟨raw, c.compile raw⟩ := by
  induction raws with
  | nil => rw [operands, List.map_nil]
  | cons raw raws ih => rw [operands, ih, List.map_cons]

theorem length_operands (raws : List Json) :
    (c.operands raws).length = raws.length := by
  rw [operands_eq_map, List.length_map]

theorem raws_operands (raws : List Json) :
    (c.operands raws).map Operand.raw = raws := by
  rw [operands_eq_map, List.map_map]
  exact List.map_id raws

/-- An application of a special form makes the node of the form, narrowed and
folded where it stands. -/
theorem compile_form {name : String} {f : SpecialForm}
    (hlookup : c.registry.lookup name = some (.special name f))
    (raws : List Json) (s : Site) (how : Option Narrowing) :
    c.compile (.array (.string name :: raws)) s how =
      Compile.form f name s (c.operands raws) >>=
        Compile.finish c.folding s how := by
  rw [compile, operands]
  delta Compile.application
  simp only [hlookup]

section Induction

variable {c} {P : Operand → Prop}
  (literal : ∀ raw, P ⟨raw, fun s how =>
    Compile.finish c.folding s how (Expr.ofJson raw)⟩)
  (object : ∀ fields, P ⟨.object fields, fun s _ => s.fail .bareObject⟩)
  (application : ∀ raws, (∀ o ∈ c.operands raws, P o) →
    P ⟨.array raws, fun s how => do
      Compile.finish c.folding s how
        (← Compile.application c.registry s (c.operands raws))⟩)

include literal object application

/-- Every document is an operand with the property. -/
theorem induction (raw : Json) : P ⟨raw, c.compile raw⟩ := by
  match raw with
  | .array raws =>
      rw [compile]
      refine application raws ?_
      rw [operands_eq_map]
      exact List.forall_mem_map.2 fun raw _ => induction raw
  | .object fields =>
      rw [compile]
      exact object fields
  | .null | .boolean _ | .number _ | .string _ =>
      rw [compile]
      exact literal _

end Induction

end Compiler

/-! ## Properties of nodes -/

/-- A property of nodes that everything has that the compiler makes on its own,
and every node that an application makes of operands from some class of
documents. -/
structure NodeLaw (r : Registry) (A : Json → Prop) (N : Expr → Prop) :
    Prop where
  part : ∀ raws, A (.array raws) → ∀ raw ∈ raws, A raw
  literal : ∀ ty v, N (.literal ty v)
  assertion : ∀ ty e, N (.assertion ty [e])
  coercion : ∀ ty e, N (.coercion ty [e])
  application : ∀ (s : Site) (args : List Operand), (∀ o ∈ args, A o.raw) →
    Ensures N (Compile.application r s args)

namespace NodeLaw

open Compile

variable {r : Registry} {A : Json → Prop} {N : Expr → Prop}
  (h : NodeLaw r A N) {s : Site} {e : Expr}
include h

omit h in
theorem forall_nodes {P : Expr → Prop} :
    (∀ n ∈ e.nodes, P n) ↔ P e ∧ ∀ c ∈ e.children, ∀ n ∈ c.nodes, P n := by
  rw [Expr.nodes_eq, List.forall_mem_cons]
  simp only [List.mem_flatMap]
  exact and_congr_right fun _ =>
    ⟨fun h c hc n hn => h n ⟨c, hc, hn⟩, fun h n ⟨c, hc, hn⟩ => h c hc n hn⟩

theorem narrow (how : Narrowing) (ty : Ty) (he : ∀ n ∈ e.nodes, N n) :
    ∀ n ∈ (narrow how ty e).nodes, N n := by
  have hassertion : ∀ n ∈ (Expr.assertion ty [e]).nodes, N n :=
    forall_nodes.2 ⟨h.assertion ty e, List.forall_mem_singleton.2 he⟩
  cases how with
  | assert => exact hassertion
  | coerce =>
      simp only [Compile.narrow]
      split
      · exact forall_nodes.2
          ⟨h.coercion ty e, List.forall_mem_singleton.2 he⟩
      · exact hassertion
  | _ => exact he

theorem finish (folding : Bool) (how : Option Narrowing)
    (he : ∀ n ∈ e.nodes, N n) :
    Ensures (fun e => ∀ n ∈ e.nodes, N n) (finish folding s how e) := by
  have hconform : Ensures (fun e => ∀ n ∈ e.nodes, N n) (conform s how e) := by
    unfold conform
    split
    · exact .pure he
    · split
      · exact .pure (h.narrow _ _ he)
      · split
        · exact .pure (h.narrow _ _ he)
        · split
          · exact .pure he
          · exact .fail
  refine .bind hconform fun e he => ?_
  unfold settle
  split
  · split
    · exact .pure (forall_nodes.2 ⟨h.literal _ _, nofun⟩)
    · exact .fail
  · exact .pure he

theorem fromOperands {args : List Operand} {scope : Scope}
    (hargs : ∀ o ∈ args, ∀ (s : Site) (how : Option Narrowing),
      Ensures (fun e => ∀ n ∈ e.nodes, N n) (o.compile s how))
    (he : FromOperands args scope e) : ∀ n ∈ e.nodes, N n := by
  induction he with
  | operand h =>
      obtain ⟨o, ho, s, how, -, he⟩ := h
      exact hargs o ho s how _ he
  | assertion _ ih =>
      exact forall_nodes.2
        ⟨h.assertion _ _, List.forall_mem_singleton.2 ih⟩

/-- An application of operands from the class has the property in all its
nodes if what its operands compile to does. -/
theorem nodes_of_application {args : List Operand}
    (hraws : ∀ o ∈ args, A o.raw)
    (hargs : ∀ o ∈ args, ∀ (s : Site) (how : Option Narrowing),
      Ensures (fun e => ∀ n ∈ e.nodes, N n) (o.compile s how)) :
    Ensures (fun e => ∀ n ∈ e.nodes, N n)
      (Compile.application r s args) := by
  intro e he
  have hself := h.application s args hraws e he
  cases args with
  | nil => cases he
  | cons head args =>
      obtain ⟨hassembled, -⟩ := application_assembled r e he
      refine forall_nodes.2 ⟨hself, fun c hc => ?_⟩
      obtain ⟨scope, hc⟩ := hassembled.exists_scope hc
      exact h.fromOperands (List.forall_mem_cons.1 hargs).2 hc

end NodeLaw

/-- A document from the class compiles to a tree whose nodes all have the
property. -/
theorem Compiler.nodes_of_compile {c : Compiler} {A : Json → Prop}
    {N : Expr → Prop} (h : NodeLaw c.registry A N) {raw : Json} (hraw : A raw)
    (s : Site) (how : Option Narrowing) :
    Ensures (fun e => ∀ n ∈ e.nodes, N n) (c.compile raw s how) := by
  have hall : A raw → ∀ (s : Site) (how : Option Narrowing),
      Ensures (fun e => ∀ n ∈ e.nodes, N n) (c.compile raw s how) := by
    refine Compiler.induction (P := fun o => A o.raw → ∀ s how,
      Ensures (fun e => ∀ n ∈ e.nodes, N n) (o.compile s how))
      (fun raw _ s how => ?_) (fun fields _ s how => .fail)
      (fun raws hraws hraw s how => ?_) raw
    · exact h.finish _ _
        (NodeLaw.forall_nodes.2 ⟨h.literal _ _, nofun⟩)
    · have hparts : ∀ o ∈ c.operands raws, A o.raw := by
        rw [operands_eq_map]
        exact List.forall_mem_map.2 (h.part raws hraw)
      refine .bind (h.nodes_of_application hparts fun o ho => ?_) fun e he => ?_
      · exact hraws o ho (hparts o ho)
      · exact h.finish _ _ he
  exact hall hraw s how

end MapStyle
