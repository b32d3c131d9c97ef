import Mathlib.Data.List.Forall2
import MapStyle.Compile.Compiler
import MapStyle.Operator.Standard
import MapStyle.Proofs.Expr.Parts
import MapStyle.Proofs.Typing.Subsumption

/-!
# The typing rules of expression trees

`Expr.Obeys` says what a node has to satisfy to have the type that it claims,
given the types of its operands. It is the declarative counterpart of the
checks that are scattered over the compiler, one rule for each kind of node,
and `Expr.Typed` asks it of every part of a tree, bound expressions included.

Compound operators are typed by the registry, so two properties of registries
matter. An operator has to claim the type that its primitives compute, and at
most one of its signatures may take a given number of operands: choosing among
several would depend on which operands happen to compile.
-/

namespace MapStyle

namespace Primitive

/-- The type of what a primitive computes. -/
def result : Primitive → Ty
  | .sum | .product | .difference | .negation | .quotient | .remainder | .power
  | .least | .greatest | .constant _ | .function _ | .zoom | .heatmapDensity
  | .lineProgress | .accumulated => .number
  | .upcase | .downcase | .concat | .typeName | .geometryType => .string
  | .hasProperty | .hasMember | .not | .propertyEquals | .idEquals | .kindEquals
  | .propertyCompares _ | .propertyPresent | .idPresent | .kindIn | .idIn
  | .propertyIn | .propertyInSorted => .boolean
  | .property | .member | .state | .id => .value
  | .color => .color
  | .channels => .array .number (some 4)
  | .properties => .object
  | .fail => .error

end Primitive

/-! ## Lawful registries -/

/-- Whether no number of operands fits both. -/
def Params.apart : Params → Params → Bool
  | .fixed ts, .fixed us => ts.length != us.length
  | _, _ => false

theorem Params.not_both_of_apart {p q : Params} (h : p.apart q = true)
    {n : Nat} (hp : p.acceptsCount n = true) : q.acceptsCount n = false := by
  match p, q with
  | .fixed ts, .fixed us =>
      simp only [apart, acceptsCount, bne_iff_ne, beq_iff_eq] at h hp ⊢
      exact beq_eq_false_iff_ne.2 fun hq => h (hp.trans hq.symm)

/-- An operator claims the type that its primitives compute, and no two of its
signatures take the same number of operands. -/
structure CompoundOperator.Lawful (op : CompoundOperator Primitive) : Prop where
  output_eq : ∀ sig ∈ op.signatures, op.output = sig.primitive.result
  apart : op.signatures.Pairwise fun a b => a.params.apart b.params = true

/-- All compound operators are lawful. -/
def Registry.Lawful (r : Registry) : Prop :=
  ∀ op, .compound op ∈ r.operators → op.Lawful

namespace CompoundOperator

/-- The signatures that take so many operands are one or none. -/
theorem Lawful.fitting {op : CompoundOperator Primitive} (h : op.Lawful)
    (n : Nat) :
    (op.signatures.filter fun sig => sig.params.acceptsCount n) = [] ∨
      ∃ sig ∈ op.signatures,
        (op.signatures.filter fun sig => sig.params.acceptsCount n) = [sig] := by
  have hapart := h.apart.filter fun sig => sig.params.acceptsCount n
  have hmem {sig} :=
    @List.mem_filter _ (fun sig => sig.params.acceptsCount n) op.signatures sig
  match hfit : op.signatures.filter fun sig => sig.params.acceptsCount n with
  | [] => exact .inl hfit
  | [sig] =>
      have hsig := hmem.1 (hfit ▸ List.mem_singleton_self sig)
      exact .inr ⟨sig, hsig.1, hfit⟩
  | a :: b :: rest =>
      rw [hfit] at hapart hmem
      have ha := (hmem.1 List.mem_cons_self).2
      have hb := (hmem.1 (List.mem_cons_of_mem a List.mem_cons_self)).2
      have hab := List.rel_of_pairwise_cons hapart List.mem_cons_self
      rw [Params.not_both_of_apart hab ha] at hb
      cases hb

end CompoundOperator

theorem Registry.mem_compounds {op : CompoundOperator Primitive}
    (hop : .compound op ∈ standard.operators) : op ∈ compounds := by
  rw [standard, List.mem_append] at hop
  rcases hop with h | h
  · simp at h
  · obtain ⟨op', h, heq⟩ := List.mem_map.1 h
    cases heq
    exact h

theorem Registry.standard_lawful : Registry.standard.Lawful := by
  intro op hop
  have houtput : ∀ op ∈ compounds, ∀ sig ∈ op.signatures,
      op.output = sig.primitive.result := by decide
  have hapart : ∀ op ∈ compounds,
      op.signatures.Pairwise fun a b => a.params.apart b.params = true := by
    decide
  exact ⟨houtput op (mem_compounds hop), hapart op (mem_compounds hop)⟩

namespace Expr

/-! ## The rules -/

/-- The rule of every kind of node. -/
def Obeys (r : Registry) : Expr → Prop
  | .literal ty v => ty.accepts v.type = true
  | .assertion _ args => args ≠ []
  | .coercion ty args => Compile.isCoercible ty = true ∧ args ≠ []
  | .binding _ _ | .reference _ _ => True
  | .item ty index input =>
    Ty.number.accepts index.type = true ∧
      (Ty.array ty none).accepts input.type = true
  | .membership ty needle haystack =>
    ty = .boolean ∧ Compile.isNeedleType needle.type = true ∧
      Compile.isSequenceType haystack.type = true
  | .position ty needle haystack start =>
    ty = .number ∧ Compile.isNeedleType needle.type = true ∧
      Compile.isSequenceType haystack.type = true ∧
      ∀ e ∈ start, Ty.number.accepts e.type = true
  | .slice ty input start stop =>
    Compile.sliceType? input.type = some ty ∧
      Ty.number.accepts start.type = true ∧
      ∀ e ∈ stop, Ty.number.accepts e.type = true
  | .length ty input =>
    ty = .number ∧ Compile.isSequenceType input.type = true
  | .conditional ty branches otherwise =>
    (∀ b ∈ branches, Ty.boolean.accepts b.1.type = true ∧
      ty.accepts b.2.type = true) ∧ ty.accepts otherwise.type = true
  | .selection ty inputTy input branches otherwise =>
    (input.type = .value ∨ inputTy.accepts input.type = true) ∧
      (∀ b ∈ branches, ty.accepts b.2.type = true) ∧
      ty.accepts otherwise.type = true
  -- A first operand of the type itself, which null is not of, shields the
  -- others: they count only when it has a value that is not of its type.
  | .coalesce ty args =>
    args ≠ [] ∧ ((∀ e ∈ args, ty.accepts e.type = true) ∨
      (args.head?.map type = some ty ∧ ty.accepts .null = false))
  | .step ty input stops =>
    Ty.number.accepts input.type = true ∧ stops ≠ [] ∧
      ∀ s ∈ stops, ty.accepts s.2.type = true
  | .interpolate ty _ _ input stops =>
    Ty.number.accepts input.type = true ∧ stops ≠ [] ∧
      (∀ s ∈ stops, ty.accepts s.2.type = true) ∧
      Compile.isInterpolatable ty = true
  | .comparison ty op untyped lhs rhs =>
    ty = .boolean ∧ op.admits lhs.type = true ∧ op.admits rhs.type = true ∧
      untyped = (lhs.type == .value || rhs.type == .value)
  | .all ty args | .any ty args =>
    ty = .boolean ∧ ∀ e ∈ args, Ty.boolean.accepts e.type = true
  | .globalState ty _ => ty = .value
  | .within ty _ => ty = .boolean
  | .distance ty _ => ty = .number
  | .compound name ty primitive impure args =>
    ∃ op, .compound op ∈ r.operators ∧ op.name = name ∧ op.output = ty ∧
      op.impure = impure ∧
      ∃ sig ∈ op.signatures, sig.primitive = primitive ∧
        List.Forall₂ (fun t e => t.accepts e.type = true)
          (sig.params.expected args.length) args

/-- All parts of the tree obey their rules. -/
def Typed (r : Registry) (e : Expr) : Prop :=
  ∀ p : Expr, p.PartOf e → p.Obeys r

theorem typed_iff {r : Registry} {e : Expr} :
    e.Typed r ↔ e.Obeys r ∧ ∀ c ∈ e.operands, c.Typed r :=
  forall_partOf

/-- Whether the node may have no value where its type promises a number: a
distance, or an accumulated number, that is not known. -/
def isPartial : Expr → Bool
  | .distance _ _ => true
  | .compound _ _ primitive _ _ => primitive == .accumulated
  | _ => false

end Expr

end MapStyle
