import MapStyle.Proofs.Typing.Failures
import MapStyle.Proofs.Typing.Soundness

/-!
# Compiled expressions do not get stuck

The half of type soundness that is about failures. In a typed tree each operand
is of the type that its parent reads it as, so that no evaluation fails because
outputs of a curve cannot be blended; and if it fails because a value is not of
an expected type, then something in the tree is loose: an assertion, whose
business it is to fail in this way, or a partial node, which may be null.

As for the types of values, one step says what a node does if its operands are
known to behave, and the tree follows by induction.
-/

namespace MapStyle

/-- All signatures pass on operands that their primitives take. -/
def Registry.Supplies (r : Registry) : Prop :=
  ∀ op, .compound op ∈ r.operators →
    ∀ sig ∈ op.signatures, sig.params ∈ sig.primitive.takes

theorem Registry.standard_supplies : Registry.standard.Supplies := by
  intro op hop
  have htakes : ∀ op ∈ compounds, ∀ sig ∈ op.signatures,
      sig.params ∈ sig.primitive.takes := by decide
  exact htakes op (mem_compounds hop)

namespace Expr

open Outcome (Reads)

variable {r : Registry} {ctx : Context} {loose : Prop} {e : Expr}

/-- Whether the node brings values into the tree whose types are not settled
before it is evaluated. -/
def isLoose : Expr → Bool
  | .assertion _ _ => true
  | e => e.isPartial

/-- A compound node hands its operands on to its primitive. -/
theorem possible_compound (hr : r.Supplies) {name : String} {ty : Ty}
    {primitive : Primitive} {impure : Bool} {args : List Expr}
    (hobeys : (compound name ty primitive impure args).Obeys r)
    (hop : ∀ c ∈ args, Reads loose c.type (c.evaluate ctx)) :
    Fails (EvalError.Possible loose)
      ((compound name ty primitive impure args).evaluate ctx) := by
  obtain ⟨op, hmem, -, -, -, sig, hsig, rfl, hargs⟩ := hobeys
  rw [evaluate, evaluateList_eq_map]
  refine Primitive.apply_possible (hr op hmem sig hsig) ?_
  rw [List.length_map, List.forall₂_map_right_iff]
  obtain ⟨hlength, haccepts⟩ := List.forall₂_iff_zip.1 hargs
  refine List.forall₂_iff_zip.2 ⟨hlength, fun hmem => ?_⟩
  exact (hop _ (List.of_mem_zip hmem).2).mono (haccepts hmem)

/-- A node that obeys its rule, if its operands have values of their types. -/
theorem possible_of_operands (hr : r.Supplies) (hobeys : e.Obeys r)
    (hloose : e.isLoose = true → loose)
    (hop : ∀ c ∈ e.operands, Reads loose c.type (c.evaluate ctx)) :
    Fails (EvalError.Possible loose) (e.evaluate ctx) := by
  have houtcomes {args : List Expr} (hargs : ∀ c ∈ args, c ∈ e.operands) :
      ∀ o ∈ args.map (evaluate ctx), Fails (EvalError.Possible loose) o :=
    List.forall_mem_map.2 fun c hc => (hop c (hargs c hc)).possible
  cases e with
  | literal ty value =>
      rw [evaluate]
      exact .pure
  | assertion ty args =>
      rw [evaluate, evaluateList_eq_map]
      exact Semantics.assertType_possible (hloose rfl) (houtcomes fun _ => id)
  | coercion ty args =>
      rw [evaluate, evaluateList_eq_map]
      exact Semantics.convert_possible (houtcomes fun _ => id)
  | binding names body =>
      rw [evaluate]
      exact (hop body (by simp [operands, children])).possible
  | reference name bound =>
      rw [evaluate]
      exact (hop bound List.mem_cons_self).possible
  | item ty index input =>
      rw [evaluate]
      have hindex := hop index (by simp [operands, children])
      have hinput := hop input (by simp [operands, children])
      exact Semantics.item_possible (hindex.mono hobeys.1)
        (hinput.mono hobeys.2)
  | membership ty needle haystack =>
      rw [evaluate]
      exact Semantics.contains_possible
        (hop needle (by simp [operands, children])).possible
        (hop haystack (by simp [operands, children])).possible
  | position ty needle haystack start =>
      rw [evaluate, evaluateOption_eq_map]
      refine Semantics.position_possible
        (hop needle (by simp [operands, children])).possible
        (hop haystack (by simp [operands, children])).possible
        fun o ho => ?_
      obtain ⟨c, hc, rfl⟩ := Option.map_eq_some_iff.1 ho
      have hstart := hop c (by simp [operands, children, hc])
      exact hstart.mono (hobeys.2.2.2 c hc)
  | slice ty input start stop =>
      rw [evaluate, evaluateOption_eq_map]
      have hstart := hop start (by simp [operands, children])
      refine Semantics.slice_possible
        (hop input (by simp [operands, children])).possible
        (hstart.mono hobeys.2.1) fun o ho => ?_
      obtain ⟨c, hc, rfl⟩ := Option.map_eq_some_iff.1 ho
      have hstop := hop c (by simp [operands, children, hc])
      exact hstop.mono (hobeys.2.2 c hc)
  | length ty input =>
      rw [evaluate]
      exact Semantics.length_possible
        (hop input (by simp [operands, children])).possible
  | conditional ty branches otherwise =>
      rw [evaluate, evaluateBranches_eq_map]
      refine Semantics.conditional_possible
        (List.forall_mem_map.2 fun b hb => ⟨?_, ?_⟩)
        (hop otherwise (by simp [operands, children])).possible
      · refine (hop b.1 ?_).possible
        simp only [operands, children, List.mem_append, List.mem_flatMap]
        exact .inl ⟨b, hb, by simp⟩
      · refine (hop b.2 ?_).possible
        simp only [operands, children, List.mem_append, List.mem_flatMap]
        exact .inl ⟨b, hb, by simp⟩
  | selection ty inputTy input branches otherwise =>
      rw [evaluate, evaluateLabelled_eq_map]
      refine Semantics.selection_possible
        (hop input (by simp [operands, children])).possible
        (List.forall_mem_map.2 fun b hb => (hop b.2 ?_).possible)
        (hop otherwise (by simp [operands, children])).possible
      simp only [operands, children, List.mem_append, List.mem_cons,
        List.mem_map]
      exact .inl (.inr ⟨b, hb, rfl⟩)
  | coalesce ty args =>
      rw [evaluate, evaluateList_eq_map]
      exact Semantics.coalesce_possible (houtcomes fun _ => id)
  | step ty input stops =>
      rw [evaluate, evaluateStops_eq_map]
      refine Semantics.step_possible
        ((hop input List.mem_cons_self).mono hobeys.1)
        (List.forall_mem_map.2 fun s hs => (hop s.2 ?_).possible)
      exact List.mem_cons_of_mem _ (List.mem_map_of_mem hs)
  | interpolate ty space kind input stops =>
      rw [evaluate, evaluateStops_eq_map]
      obtain ⟨hinput, -, hstops, hty⟩ := hobeys
      refine Semantics.interpolate_possible hty
        ((hop input List.mem_cons_self).mono hinput)
        (List.forall_mem_map.2 fun s hs => (hop s.2 ?_).mono (hstops s hs))
      exact List.mem_cons_of_mem _ (List.mem_map_of_mem hs)
  | comparison ty op untyped lhs rhs =>
      rw [evaluate]
      exact Semantics.comparison_possible
        (hop lhs (by simp [operands, children])).possible
        (hop rhs (by simp [operands, children])).possible
  | all ty args =>
      rw [evaluate, evaluateList_eq_map]
      exact Semantics.all_possible
        (List.forall_mem_map.2 fun c hc => (hop c hc).mono (hobeys.2 c hc))
  | any ty args =>
      rw [evaluate, evaluateList_eq_map]
      exact Semantics.any_possible
        (List.forall_mem_map.2 fun c hc => (hop c hc).mono (hobeys.2 c hc))
  | globalState ty key =>
      rw [evaluate]
      exact .pure
  | within ty region =>
      rw [evaluate]
      exact .pure
  | distance ty shapes =>
      rw [evaluate]
      exact .pure
  | compound name ty primitive impure args =>
      exact possible_compound hr hobeys hop

/-- The outcome of a typed tree, as one of its own type. -/
theorem Typed.reads (hl : r.Lawful) (hr : r.Supplies) (he : e.Typed r)
    (hloose : ∀ p : Expr, p.PartOf e → p.isLoose = true → loose) :
    Reads loose e.type (e.evaluate ctx) := by
  induction e using Expr.induction with
  | step e ih =>
      refine ⟨?_, fun v hv => ?_⟩
      · refine possible_of_operands hr (he e .refl) (hloose e .refl)
          fun c hc => ih c hc ?_ ?_
        · exact fun p hp => he p (.operand hc hp)
        · exact fun p hp => hloose p (.operand hc hp)
      · refine (he.sound hl v hv).imp_right fun ⟨hnumber, hstray⟩ => ?_
        obtain ⟨p, hp, hpartial⟩ := hstray.exists_partial
        refine ⟨by rw [hnumber]; rfl, hloose p hp ?_⟩
        cases p <;> first | exact hpartial | rfl

end Expr

namespace StyleExpression

variable {spec : Option PropertySpecification} {raw : Json} {e : StyleExpression}

/-- No evaluation of a compiled expression fails because outputs cannot be
blended; and none fails because of a type if no part of the tree is loose. -/
theorem evaluate_unstuck (h : compile .standard spec raw = .ok e)
    (ctx : Context) :
    (∀ obstacle, e.evaluate ctx ≠ .error (.notInterpolatable obstacle)) ∧
    (∀ first second,
      e.evaluate ctx ≠ .error (.arrayLengthMismatch first second)) ∧
    ((∀ p : Expr, p.PartOf e.expression → p.isLoose = false) →
      ∀ expected found,
        e.evaluate ctx ≠ .error (.typeMismatch expected found)) := by
  obtain ⟨htyped, -⟩ := typed_of_compile h
  have hpossible (loose : Prop)
      (hloose : ∀ p : Expr, p.PartOf e.expression → p.isLoose = true → loose) :
      Fails (EvalError.Possible loose) (e.evaluate ctx) := by
    have hreads : (e.expression.evaluate ctx).Reads loose e.expression.type :=
      htyped.reads Registry.standard_lawful Registry.standard_supplies hloose
    refine hreads.possible.bind fun v _ => ?_
    split
    · split
      · exact .pure
      · exact .throw trivial
    · exact .pure
  refine ⟨fun _ herr => ?_, fun _ _ herr => ?_, fun hloose _ _ herr => ?_⟩
  · exact hpossible True (fun _ _ _ => trivial) _ herr
  · exact hpossible True (fun _ _ _ => trivial) _ herr
  · refine hpossible False (fun p hp hp' => ?_) _ herr
    exact Bool.false_ne_true ((hloose p hp).symm.trans hp')

/-- `["interpolate", ["linear"], ["zoom"], 0, ["literal", [1, 2]],
10, ["literal", [3, 4]]]`. -/
def pairCurve : Json :=
  .array [.string "interpolate", .array [.string "linear"],
    .array [.string "zoom"],
    .number (.integer 0), .array [.string "literal",
      .array [.number (.integer 1), .number (.integer 2)]],
    .number (.integer 10), .array [.string "literal",
      .array [.number (.integer 3), .number (.integer 4)]]]

/-- A property of two numbers. -/
def pairProperty : PropertySpecification :=
  { type := .array, value := some .number, length := some 2 }

/-- What the document compiles to. -/
def pairExpression : StyleExpression :=
  let pair (m n : Int) : Expr := .literal (.array .number (some 2))
    (.array [.number (Float.ofInt m), .number (Float.ofInt n)])
  { expression := .interpolate (.array .number (some 2)) .rgb .linear
      (.compound "zoom" .number .zoom false [])
      [(Float.ofInt 0, pair 1 2), (Float.ofInt 10, pair 3 4)]
    fallback := .null
    allowed := none }

theorem compile_pairCurve :
    compile .standard (some pairProperty) pairCurve = .ok pairExpression := by
  rfl

theorem evaluate_unstuck_pair :
    compile .standard (some pairProperty) pairCurve = .ok pairExpression ∧
      (∀ p : Expr, p.PartOf pairExpression.expression → p.isLoose = false) ∧
      ∀ ctx : Context,
        (∀ obstacle,
          pairExpression.evaluate ctx ≠ .error (.notInterpolatable obstacle)) ∧
        (∀ first second, pairExpression.evaluate ctx ≠
          .error (.arrayLengthMismatch first second)) ∧
        ∀ expected found, pairExpression.evaluate ctx ≠
          .error (.typeMismatch expected found) := by
  have hloose : ∀ p : Expr, p.PartOf pairExpression.expression →
      p.isLoose = false := by
    refine Expr.forall_partOf.2 ⟨rfl, List.forall_mem_cons.2 ⟨?_, ?_⟩⟩
    · exact Expr.forall_partOf.2 ⟨rfl, nofun⟩
    refine List.forall_mem_cons.2 ⟨?_, List.forall_mem_singleton.2 ?_⟩
    · exact Expr.forall_partOf.2 ⟨rfl, nofun⟩
    · exact Expr.forall_partOf.2 ⟨rfl, nofun⟩
  refine ⟨compile_pairCurve, hloose, fun ctx => ?_⟩
  obtain ⟨hblend, hlength, htype⟩ := evaluate_unstuck compile_pairCurve ctx
  exact ⟨hblend, hlength, htype hloose⟩

end StyleExpression

end MapStyle
