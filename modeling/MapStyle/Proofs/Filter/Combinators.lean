import MapStyle.Proofs.Filter.Legacy
import MapStyle.Proofs.Filter.Normalization

/-!
# Combinations of filters

Filters are combined by `all`, `any` and `none`, and one would expect of a
combination that it passes a feature as the connective makes of what its
operands pass. Two grammars stand in the way. A combination is read as an
expression if all its operands are expressions, and otherwise as a legacy
filter, down to its leaves; an operand that would have been an expression by
itself is then taken for a legacy filter too, and what legacy filters do not
know passes everything. So the law holds for the operands as the combination
reads them. `KeepsMeaning` is what an operand needs for that to be the operand
itself, and a filter that belongs to both grammars has it (`LegacyReadable`,
which is decided on the document).
-/

namespace MapStyle

/-- Whether the second outcome is the first one if that is a value. -/
def Outcome.Refines (o o' : Outcome) : Prop :=
  ∀ v, o = .ok v → o' = .ok v

namespace Semantics

variable {os os' : List Outcome} (h : List.Forall₂ Outcome.Refines os os')
include h

theorem all_refines : (all os).Refines (all os') := by
  induction h with
  | nil => exact fun _ => id
  | @cons o o' _ _ head _ ih =>
      intro v hv
      obtain ⟨b, hb, hv⟩ := ok_of_bind hv
      rw [head _ (Outcome.boolean_ok hb), all]
      cases b with
      | true => exact ih v hv
      | false => exact hv

theorem any_refines : (any os).Refines (any os') := by
  induction h with
  | nil => exact fun _ => id
  | @cons o o' _ _ head _ ih =>
      intro v hv
      obtain ⟨b, hb, hv⟩ := ok_of_bind hv
      rw [head _ (Outcome.boolean_ok hb), any]
      cases b with
      | true => exact hv
      | false => exact ih v hv

end Semantics

namespace Filter

open Compiler

theorem exists_value_of_isLiteral {e : Expr} (h : e.isLiteral = true)
    (ctx : Context) : ∃ v, e.evaluate ctx = .ok v := by
  cases e with
  | literal ty v => exact ⟨v, rfl⟩
  | _ => cases h

/-! ## Operands -/

variable {raws : List Json} {es : List Expr}

theorem compileAll_of_compilesTo (h : List.Forall₂ CompilesTo raws es)
    (i : Nat) :
    Operand.compileAll root (some .boolean) i (compiler.operands raws) =
      .ok es := by
  induction h generalizing i with
  | nil => rfl
  | @cons raw e _ _ head _ ih =>
      have hhead : compiler.compile raw
          (root.child i (some .boolean) []) none = .ok e := head.compile [i]
      simp only [operands, Operand.compileAll, Operand.compileAt]
      rw [hhead, ih]
      rfl

theorem compilesTo_of_compileAll {i : Nat}
    (h : Operand.compileAll root (some .boolean) i (compiler.operands raws) =
      .ok es) : List.Forall₂ CompilesTo raws es := by
  induction raws generalizing i es with
  | nil =>
      obtain rfl := ok_of_pure h
      exact .nil
  | cons raw raws ih =>
      rw [operands] at h
      obtain ⟨e, he, h⟩ := ok_of_bind h
      obtain ⟨es, hes, h⟩ := ok_of_bind h
      obtain rfl := ok_of_pure h
      have hhead : compiler.compile raw
          { root with path := [i] } none = .ok e := he
      exact .cons (.of_compile hhead) (ih hes)

/-- Whether trees have these truth values in a context. -/
def HaveValues (ctx : Context) : List Expr → List Bool → Prop :=
  List.Forall₂ fun e b => e.evaluate ctx = .ok (.boolean b)

theorem HaveValues.refine {es' : List Expr} {ctx : Context} {bs : List Bool}
    (h : HaveValues ctx es bs)
    (hrefines : List.Forall₂ Outcome.Refines (es.map (·.evaluate ctx))
      (es'.map (·.evaluate ctx))) : HaveValues ctx es' bs := by
  induction h generalizing es' with
  | nil =>
      cases es' with
      | nil => exact .nil
      | cons => cases hrefines
  | cons hb _ ih =>
      cases es' with
      | nil => cases hrefines
      | cons =>
          obtain ⟨head, tail⟩ := List.forall₂_cons.1 hrefines
          exact .cons (head _ hb) (ih tail)

theorem HaveValues.map_eq {ctx : Context} {bs : List Bool}
    (h : HaveValues ctx es bs) :
    es.map (·.evaluate ctx) = bs.map fun b => .ok (.boolean b) := by
  rw [← List.forall₂_eq_eq_eq, List.forall₂_map_left_iff,
    List.forall₂_map_right_iff]
  exact h

/-- Where all operands have values, these are booleans. -/
theorem exists_haveValues (h : List.Forall₂ CompilesTo raws es) {ctx : Context}
    (hvalue : ∀ e ∈ es, ∃ v, e.evaluate ctx = .ok v) :
    ∃ bs, HaveValues ctx es bs := by
  induction h with
  | nil => exact ⟨[], .nil⟩
  | cons head _ ih =>
      obtain ⟨⟨v, hv⟩, hvalue⟩ := List.forall_mem_cons.1 hvalue
      obtain ⟨b, rfl⟩ := head.eq_boolean hv
      obtain ⟨bs, hbs⟩ := ih hvalue
      exact ⟨b :: bs, .cons hv hbs⟩

/-! ## Connectives -/

/-- A connective of the grammar of expressions: the nodes that it makes have the
outcome `outcome` of those of their operands, which is a value if these are
booleans and does not change where more operands have values, and are constant
only if their operands are literals. -/
structure Connects (name : String) (node : Ty → List Expr → Expr)
    (outcome : List Outcome → Outcome) : Prop where
  compile_eq : ∀ raws, compiler.compile (apply name raws) root none =
    Operand.compileAll root (some .boolean) 1 (compiler.operands raws) >>=
      fun es => Compile.settle true root (node .boolean es)
  evaluate_eq : ∀ ctx es, (node .boolean es).evaluate ctx =
    outcome (es.map (·.evaluate ctx))
  total : ∀ bs : List Bool,
    ∃ v, outcome (bs.map fun b => .ok (.boolean b)) = .ok v
  refines : ∀ os os', List.Forall₂ Outcome.Refines os os' →
    (outcome os).Refines (outcome os')
  isLiteral : ∀ es, (node .boolean es).isConstant = true →
    ∀ e ∈ es, e.isLiteral = true

theorem connects_all : Connects "all" .all Semantics.all where
  compile_eq := compile_connective rfl rfl (fun _ => rfl) rfl
  evaluate_eq ctx es := by rw [Expr.evaluate, Expr.evaluateList_eq_map]
  total bs := ⟨_, all_booleans bs id⟩
  refines _ _ := Semantics.all_refines
  isLiteral es h := by
    have h : (es.all Expr.isLiteral && (Expr.all .boolean es).readsNothing) =
      true := h
    exact List.all_eq_true.1 (Bool.and_eq_true_iff.1 h).1

theorem connects_any : Connects "any" .any Semantics.any where
  compile_eq := compile_connective rfl rfl (fun _ => rfl) rfl
  evaluate_eq ctx es := by rw [Expr.evaluate, Expr.evaluateList_eq_map]
  total bs := ⟨_, any_booleans bs id⟩
  refines _ _ := Semantics.any_refines
  isLiteral es h := by
    have h : (es.all Expr.isLiteral && (Expr.any .boolean es).readsNothing) =
      true := h
    exact List.all_eq_true.1 (Bool.and_eq_true_iff.1 h).1

section Connects

variable {name : String} {node : Ty → List Expr → Expr}
  {outcome : List Outcome → Outcome} (hname : Connects name node outcome)
include hname

theorem compilesTo_connective_iff {e : Expr} :
    CompilesTo (apply name raws) e ↔
      ∃ es, List.Forall₂ CompilesTo raws es ∧
        Compile.settle true root (node .boolean es) = .ok e := by
  rw [CompilesTo, hname.compile_eq]
  constructor
  · intro h
    obtain ⟨es, hes, h⟩ := ok_of_bind h
    exact ⟨es, compilesTo_of_compileAll hes, h⟩
  · rintro ⟨es, hes, h⟩
    rw [compileAll_of_compilesTo hes]
    exact h

/-- A connective of filters that compile compiles, to what has the outcome of
the connective. -/
theorem compilesTo_connective (hes : List.Forall₂ CompilesTo raws es) :
    ∃ e, CompilesTo (apply name raws) e ∧
      ∀ ctx, e.evaluate ctx = outcome (es.map (·.evaluate ctx)) := by
  -- Folding a constant node fails if it has no value, so it is to have one.
  have htotal (hconst : (node .boolean es).isConstant = true) :
      ∃ v, (node .boolean es).evaluate {} = .ok v := by
    have hvalue : ∀ e ∈ es, ∃ v, e.evaluate {} = .ok v := fun e he =>
      exists_value_of_isLiteral (hname.isLiteral es hconst e he) {}
    obtain ⟨bs, hbs⟩ := exists_haveValues hes hvalue
    rw [hname.evaluate_eq, hbs.map_eq]
    exact hname.total bs
  obtain ⟨e, he⟩ := Compile.exists_settle htotal true root
  refine ⟨e, (compilesTo_connective_iff hname).2 ⟨es, hes, he⟩, fun ctx => ?_⟩
  rw [Compile.evaluate_of_settle he, hname.evaluate_eq]

/-- The operands of a connective that compiles compile. -/
theorem exists_operands {e : Expr} (h : CompilesTo (apply name raws) e) :
    ∃ es, List.Forall₂ CompilesTo raws es ∧
      ∀ ctx, e.evaluate ctx = outcome (es.map (·.evaluate ctx)) := by
  obtain ⟨es, hes, he⟩ := (compilesTo_connective_iff hname).1 h
  refine ⟨es, hes, fun ctx => ?_⟩
  rw [Compile.evaluate_of_settle he, hname.evaluate_eq]

end Connects

/-- The node of a negation. -/
def negation (e : Expr) : Expr := .compound "!" .boolean .not false [e]

theorem evaluate_negation {e : Expr} {ctx : Context} {b : Bool}
    (h : e.evaluate ctx = .ok (.boolean b)) :
    (negation e).evaluate ctx = .ok (.boolean !b) := by
  rw [negation, Expr.evaluate, Expr.evaluateList_eq_map, List.map_singleton, h]
  rfl

theorem compile_negate {raw : Json} {e : Expr} (h : CompilesTo raw e) :
    compiler.compile (negate raw) root none =
      Compile.settle true root (negation e) := by
  have hlookup : compiler.registry.lookup "!" = some (.compound
      (Registry.simple "!" [.boolean] .boolean .not)) := rfl
  have hboolean : Ty.boolean ≠ .color ∧ Ty.boolean ≠ .value := by simp
  have hoperand : compiler.compile raw (root.child 1 (some .boolean) []) none =
      .ok e := h.compile [1]
  have hoperands : Compile.operandsAgainst root 1 [.boolean]
      (compiler.operands [raw]) = .ok [e] := by
    simp only [operands, Compile.operandsAgainst, Operand.compileAt]
    rw [hoperand]
    rfl
  refine (compile_compound hlookup rfl rfl hboolean.1 hboolean.2 rfl).trans ?_
  show Compile.operandsAgainst root 1 [.boolean] (compiler.operands [raw]) >>=
    _ = _
  rw [hoperands]
  rfl

/-- The negation of a filter that compiles compiles, to what has the negated
values. -/
theorem compilesTo_negate {raw : Json} {e : Expr} (h : CompilesTo raw e) :
    ∃ e', CompilesTo (negate raw) e' ∧ ∀ ctx b,
      e.evaluate ctx = .ok (.boolean b) →
        e'.evaluate ctx = .ok (.boolean !b) := by
  have htotal (hconst : (negation e).isConstant = true) :
      ∃ v, (negation e).evaluate {} = .ok v := by
    have hconst : ([e].all Expr.isLiteral && (negation e).readsNothing) =
      true := hconst
    have hliteral : e.isLiteral = true := by
      simpa using (Bool.and_eq_true_iff.1 hconst).1
    obtain ⟨v, hv⟩ := exists_value_of_isLiteral hliteral {}
    obtain ⟨b, rfl⟩ := h.eq_boolean hv
    exact ⟨_, evaluate_negation hv⟩
  obtain ⟨e', he⟩ := Compile.exists_settle htotal true root
  refine ⟨e', (compile_negate h).trans he, fun ctx b hb => ?_⟩
  rw [Compile.evaluate_of_settle he, evaluate_negation hb]

theorem exists_negations (hes : List.Forall₂ CompilesTo raws es) :
    ∃ es', List.Forall₂ CompilesTo (raws.map negate) es' ∧
      ∀ ctx bs, HaveValues ctx es bs → HaveValues ctx es' (bs.map not) := by
  induction hes with
  | nil =>
      refine ⟨[], .nil, ?_⟩
      rintro ctx _ ⟨⟩
      exact .nil
  | cons head _ ih =>
      obtain ⟨e', he', hvalue⟩ := compilesTo_negate head
      obtain ⟨es', hes', hvalues⟩ := ih
      refine ⟨e' :: es', .cons he' hes', ?_⟩
      rintro ctx _ (_ | ⟨hb, hbs⟩)
      exact .cons (hvalue ctx _ hb) (hvalues ctx _ hbs)

/-! ## Combinations -/

inductive Combinator where
  | all
  | any
  | none

namespace Combinator

def name : Combinator → String
  | .all => "all"
  | .any => "any"
  | .none => "none"

/-- What a combination passes, from what its operands pass. -/
def combine : Combinator → List Bool → Bool
  | .all, bs => bs.all id
  | .any, bs => bs.any id
  | .none, bs => !bs.any id

/-- The combination in the grammar of expressions, which has no `none`. -/
def expression : Combinator → List Json → Json
  | .all, raws => apply "all" raws
  | .any, raws => apply "any" raws
  | .none, raws => apply "all" (raws.map negate)

variable (h : Combinator)

theorem compilesTo_expression (hes : List.Forall₂ CompilesTo raws es) :
    ∃ e, CompilesTo (h.expression raws) e ∧ ∀ ctx bs, HaveValues ctx es bs →
      e.evaluate ctx = .ok (.boolean (h.combine bs)) := by
  cases h with
  | all =>
      obtain ⟨e, he, hvalue⟩ := compilesTo_connective connects_all hes
      refine ⟨e, he, fun ctx bs hbs => ?_⟩
      rw [hvalue, hbs.map_eq]
      exact all_booleans bs id
  | any =>
      obtain ⟨e, he, hvalue⟩ := compilesTo_connective connects_any hes
      refine ⟨e, he, fun ctx bs hbs => ?_⟩
      rw [hvalue, hbs.map_eq]
      exact any_booleans bs id
  | none =>
      obtain ⟨es', hes', hvalues⟩ := exists_negations hes
      obtain ⟨e, he, hvalue⟩ := compilesTo_connective connects_all hes'
      refine ⟨e, he, fun ctx bs hbs => ?_⟩
      rw [hvalue, (hvalues ctx bs hbs).map_eq]
      have hall := all_booleans (bs.map not) id
      rw [List.all_map] at hall
      rw [combine, List.not_any_eq_all_not]
      exact hall

end Combinator

/-! ## How a combination reads its operands -/

/-- A combination is an expression if its head is one of expressions and its
operands are expressions. -/
theorem isExpression_combination {h : Combinator} {fs : List Json} :
    isExpression (apply h.name fs) = true ↔
      h ≠ .none ∧ ∀ f ∈ fs, isExpression f = true := by
  rw [← areExpressions_iff]
  cases h with
  | all => exact ⟨fun hfs => ⟨nofun, hfs⟩, And.right⟩
  | any => exact ⟨fun hfs => ⟨nofun, hfs⟩, And.right⟩
  | none => exact ⟨nofun, fun hnone => absurd rfl hnone.1⟩

/-- Legacy conversion keeps the meaning of a filter: what it makes of the filter
compiles if the filter does, and has the value of the filter where that has
one. -/
def KeepsMeaning (f : Json) : Prop :=
  ∀ e, CompilesTo (toExpression f) e → ∃ e', CompilesTo (express f) e' ∧
    ∀ ctx, (e.evaluate ctx).Refines (e'.evaluate ctx)

/-- The operands of a legacy filter as it reads them. -/
theorem exists_readings {fs : List Json} (hkeeps : ∀ f ∈ fs, KeepsMeaning f)
    (hes : List.Forall₂ (fun f => CompilesTo (toExpression f)) fs es) :
    ∃ es', List.Forall₂ CompilesTo (expressAll fs) es' ∧
      ∀ ctx, List.Forall₂ Outcome.Refines (es.map (·.evaluate ctx))
        (es'.map (·.evaluate ctx)) := by
  induction hes with
  | nil => exact ⟨[], .nil, fun _ => .nil⟩
  | cons head _ ih =>
      obtain ⟨hkeep, hkeeps⟩ := List.forall_mem_cons.1 hkeeps
      obtain ⟨e', he', hvalue⟩ := hkeep _ head
      obtain ⟨es', hes', hvalues⟩ := ih hkeeps
      exact ⟨e' :: es', .cons he' hes',
        fun ctx => .cons (hvalue ctx) (hvalues ctx)⟩

/-- Operands in the grammar of expressions compile as they stand. -/
theorem compilesTo_of_areExpressions {fs : List Json}
    (hall : ∀ f ∈ fs, isExpression f = true) :
    List.Forall₂ (fun f => CompilesTo (toExpression f)) fs es ↔
      List.Forall₂ CompilesTo fs es := by
  have hmap : fs.map toExpression = fs := by
    rw [List.map_congr_left fun f hf =>
      toExpression_of_isExpression (hall f hf), List.map_id']
  rw [← List.forall₂_map_left_iff (f := toExpression), hmap]

/-- A combination compiles and has the value that the connective makes of those
of its operands, if it is an expression or legacy conversion keeps the meaning
of the operands. -/
theorem compilesTo_combination (h : Combinator) {fs : List Json}
    (hes : List.Forall₂ (fun f => CompilesTo (toExpression f)) fs es)
    (hkeeps : isExpression (apply h.name fs) = true ∨
      ∀ f ∈ fs, KeepsMeaning f) :
    ∃ e, CompilesTo (toExpression (apply h.name fs)) e ∧
      ∀ ctx bs, HaveValues ctx es bs →
        e.evaluate ctx = .ok (.boolean (h.combine bs)) := by
  cases hexpr : isExpression (apply h.name fs) with
  | true =>
      obtain ⟨hhead, hall⟩ := isExpression_combination.1 hexpr
      have hes := (compilesTo_of_areExpressions hall).1 hes
      obtain ⟨e, he, hvalue⟩ := h.compilesTo_expression hes
      refine ⟨e, ?_, hvalue⟩
      rw [toExpression_of_isExpression hexpr]
      cases h with
      | all | any => exact he
      | none => exact absurd rfl hhead
  | false =>
      rw [toExpression_of_not_isExpression hexpr]
      have hkeeps := hkeeps.resolve_left (Bool.eq_false_iff.1 hexpr)
      obtain ⟨es', hes', hvalues⟩ := exists_readings hkeeps hes
      obtain ⟨e, he, hvalue⟩ := h.compilesTo_expression hes'
      cases hes with
      | nil =>
          -- Only `none` without operands is legacy.
          cases h with
          | all | any => cases hexpr
          | none =>
              refine ⟨.literal .boolean (.boolean true), rfl, ?_⟩
              rintro ctx _ ⟨⟩
              rfl
      | @cons f _ fs =>
          have hexpress : express (apply h.name (f :: fs)) =
              h.expression (expressAll (f :: fs)) := by
            cases h <;> rfl
          rw [hexpress]
          exact ⟨e, he,
            fun ctx bs hbs => hvalue ctx bs (hbs.refine (hvalues ctx))⟩

/-! ## Filters that keep their meaning -/

/-- Filters that legacy conversion reads as what they are: legacy filters, and
expressions that are made of what both grammars share. -/
inductive LegacyReadable : Json → Prop where
  | legacy {f : Json} (h : isExpression f = false) : LegacyReadable f
  | pass : LegacyReadable (.boolean true)
  | has (key : String) : LegacyReadable (apply "has" [.string key])
  | combination (h : Combinator) {fs : List Json}
      (hfs : ∀ f ∈ fs, LegacyReadable f) : LegacyReadable (apply h.name fs)

theorem keepsMeaning_of_not_isExpression {f : Json}
    (h : isExpression f = false) : KeepsMeaning f := by
  intro e he
  rw [toExpression_of_not_isExpression h] at he
  exact ⟨e, he, fun _ _ => id⟩

/-- Only the expressions among the operands can lose their meaning. -/
theorem keepsMeaning_of_isExpression_imp {f : Json}
    (h : isExpression f = true → KeepsMeaning f) : KeepsMeaning f := by
  cases hexpr : isExpression f with
  | true => exact h hexpr
  | false => exact keepsMeaning_of_not_isExpression hexpr

/-- Tests of the same of a feature have the same values. -/
theorem refines_of_tests {raw raw' : Json} {m : Context → Bool}
    (h : compiler.Tests raw m) (h' : compiler.Tests raw' m) {e : Expr}
    (he : CompilesTo raw e) : ∃ e', CompilesTo raw' e' ∧
      ∀ ctx, (e.evaluate ctx).Refines (e'.evaluate ctx) := by
  obtain ⟨e₁, he₁, hv₁⟩ := h root rfl
  obtain ⟨e', he', hv'⟩ := h' root rfl
  obtain rfl : e = e₁ := Except.ok.inj (he.symm.trans he₁)
  refine ⟨e', he', fun ctx v hv => ?_⟩
  rw [hv', ← hv₁, hv]

theorem keepsMeaning_has (key : String) :
    KeepsMeaning (apply "has" [.string key]) := by
  refine keepsMeaning_of_isExpression_imp fun hexpr e he => ?_
  obtain ⟨htype, hid⟩ := ne_of_not_isReserved hexpr
  rw [toExpression_of_isExpression hexpr] at he
  refine refines_of_tests (tests_hasProperty key) ?_ he
  show compiler.Tests (presence (.string key)) _
  rw [presence_property htype hid]
  exact tests_propertyPresent key

theorem refines_connective {name : String} {node : Ty → List Expr → Expr}
    {outcome : List Outcome → Outcome} (hname : Connects name node outcome)
    {fs : List Json} (hall : ∀ f ∈ fs, isExpression f = true)
    (hfs : ∀ f ∈ fs, KeepsMeaning f) {e : Expr}
    (he : CompilesTo (apply name fs) e) :
    ∃ e', CompilesTo (apply name (expressAll fs)) e' ∧
      ∀ ctx, (e.evaluate ctx).Refines (e'.evaluate ctx) := by
  obtain ⟨es, hes, hvalue⟩ := exists_operands hname he
  obtain ⟨es', hes', hvalues⟩ :=
    exists_readings hfs ((compilesTo_of_areExpressions hall).2 hes)
  obtain ⟨e', he', hvalue'⟩ := compilesTo_connective hname hes'
  refine ⟨e', he', fun ctx => ?_⟩
  rw [hvalue, hvalue']
  exact hname.refines _ _ (hvalues ctx)

theorem keepsMeaning_combination (h : Combinator) {fs : List Json}
    (hfs : ∀ f ∈ fs, KeepsMeaning f) : KeepsMeaning (apply h.name fs) := by
  refine keepsMeaning_of_isExpression_imp fun hexpr e he => ?_
  obtain ⟨hhead, hall⟩ := isExpression_combination.1 hexpr
  rw [toExpression_of_isExpression hexpr] at he
  cases fs with
  | nil =>
      -- Without operands a connective is expressed by its value.
      cases h with
      | all =>
          obtain ⟨es, hes, hvalue⟩ := exists_operands connects_all he
          cases hes
          exact ⟨.literal .boolean (.boolean true), rfl,
            fun ctx v hv => (hvalue ctx).symm.trans hv⟩
      | any =>
          obtain ⟨es, hes, hvalue⟩ := exists_operands connects_any he
          cases hes
          exact ⟨.literal .boolean (.boolean false), rfl,
            fun ctx v hv => (hvalue ctx).symm.trans hv⟩
      | none => exact absurd rfl hhead
  | cons f fs =>
      cases h with
      | all => exact refines_connective connects_all hall hfs he
      | any => exact refines_connective connects_any hall hfs he
      | none => exact absurd rfl hhead

theorem LegacyReadable.keepsMeaning {f : Json} (h : LegacyReadable f) :
    KeepsMeaning f := by
  induction h with
  | legacy h => exact keepsMeaning_of_not_isExpression h
  | pass => exact fun e he => ⟨e, he, fun _ _ => id⟩
  | has key => exact keepsMeaning_has key
  | combination h _ ih => exact keepsMeaning_combination h ih

mutual

/-- Whether a filter is legacy readable, decided on the document. -/
def isLegacyReadable : Json → Bool
  | .boolean b => b
  | .array (.string op :: args) =>
      (op == "has" && args.length == 1 && args.all Json.isString) ||
        (["all", "any", "none"].contains op && areLegacyReadable args) ||
          !isExpression (.array (.string op :: args))
  | f => !isExpression f

def areLegacyReadable : List Json → Bool
  | [] => true
  | f :: fs => isLegacyReadable f && areLegacyReadable fs

end

mutual

theorem LegacyReadable.of_isLegacyReadable : ∀ {f : Json},
    isLegacyReadable f = true → LegacyReadable f
  | .boolean true, _ => .pass
  | .boolean false, h => nomatch h
  | .array (.string op :: args), h => by
      rw [isLegacyReadable, Bool.or_eq_true_iff, Bool.or_eq_true_iff] at h
      rcases h with (hhas | hconnective) | hlegacy
      · obtain ⟨hhead, hkey⟩ := Bool.and_eq_true_iff.1 hhas
        obtain ⟨hop, hone⟩ := Bool.and_eq_true_iff.1 hhead
        obtain rfl := eq_of_beq hop
        obtain ⟨arg, rfl⟩ := List.length_eq_one_iff.1 (eq_of_beq hone)
        cases arg with
        | string key => exact .has key
        | _ => cases hkey
      · obtain ⟨hop, hargs⟩ := Bool.and_eq_true_iff.1 hconnective
        have hargs := LegacyReadable.all_of_areLegacyReadable hargs
        have hop : op = "all" ∨ op = "any" ∨ op = "none" := by simpa using hop
        rcases hop with rfl | rfl | rfl
        · exact .combination .all hargs
        · exact .combination .any hargs
        · exact .combination .none hargs
      · exact .legacy (Bool.not_eq_true' _ ▸ hlegacy)
  | .array [], _ => .legacy rfl
  | .array (.null :: _), h | .array (.boolean _ :: _), h
  | .array (.number _ :: _), h | .array (.array _ :: _), h
  | .array (.object _ :: _), h => nomatch h
  | .null, _ | .number _, _ | .string _, _ | .object _, _ => .legacy rfl

theorem LegacyReadable.all_of_areLegacyReadable : ∀ {fs : List Json},
    areLegacyReadable fs = true → ∀ f ∈ fs, LegacyReadable f
  | [], _ => nofun
  | f :: fs, h => by
      obtain ⟨hf, hfs⟩ := Bool.and_eq_true_iff.1 h
      exact List.forall_mem_cons.2
        ⟨.of_isLegacyReadable hf, LegacyReadable.all_of_areLegacyReadable hfs⟩

end

theorem areLegacyReadable_of_forall {fs : List Json}
    (h : ∀ f ∈ fs, isLegacyReadable f = true) :
    areLegacyReadable fs = true := by
  induction fs with
  | nil => rfl
  | cons f fs ih =>
      obtain ⟨hf, hfs⟩ := List.forall_mem_cons.1 h
      rw [areLegacyReadable, hf, ih hfs]
      rfl

theorem isLegacyReadable_iff {f : Json} :
    isLegacyReadable f = true ↔ LegacyReadable f := by
  refine ⟨.of_isLegacyReadable, fun h => ?_⟩
  induction h with
  | @legacy f h =>
      cases f with
      | boolean => cases h
      | array items =>
          match items with
          | .string op :: args =>
              rw [isLegacyReadable, h]
              exact Bool.or_true _
          | [] => rfl
          | .null :: _ | .boolean _ :: _ | .number _ :: _ | .array _ :: _
          | .object _ :: _ => cases h
      | _ => rfl
  | pass => rfl
  | has key => rfl
  | combination h _ ih =>
      have hhead : ["all", "any", "none"].contains h.name = true := by
        cases h <;> rfl
      rw [apply, isLegacyReadable, hhead, areLegacyReadable_of_forall ih,
        Bool.and_true, Bool.or_true, Bool.true_or]

instance (f : Json) : Decidable (LegacyReadable f) :=
  decidable_of_iff _ isLegacyReadable_iff

end Filter

namespace FeatureFilter

open MapStyle.Filter

variable {raws : List Json} {fs : List FeatureFilter}

/-- Whether each of the filters is compiled from the document in its place. -/
abbrev AreCompiled (raws : List Json) (fs : List FeatureFilter) : Prop :=
  List.Forall₂ (fun raw f => compile .standard raw = .ok f) raws fs

theorem AreCompiled.compilesTo (h : AreCompiled raws fs) :
    List.Forall₂ (fun raw => CompilesTo (toExpression raw)) raws
      (fs.map (·.expression.expression)) := by
  refine List.forall₂_map_right_iff.2 (h.imp fun raw f hf => ?_)
  obtain ⟨e, he, rfl⟩ := compile_iff.1 hf
  exact he

/-- Filters that have values pass a feature if their values are true. -/
theorem AreCompiled.haveValues (h : AreCompiled raws fs) {ctx : Context}
    (hvalue : ∀ f ∈ fs, ∃ v, f.expression.evaluate ctx = .ok v) :
    HaveValues ctx (fs.map (·.expression.expression))
      (fs.map (·.passes ctx)) := by
  induction h with
  | nil => exact .nil
  | cons hf _ ih =>
      obtain ⟨⟨v, hv⟩, hrest⟩ := List.forall_mem_cons.1 hvalue
      obtain ⟨e, he, rfl⟩ := compile_iff.1 hf
      rw [evaluate_ofTree] at hv
      obtain ⟨b, rfl⟩ := he.eq_boolean hv
      refine .cons ?_ (ih hrest)
      show e.evaluate ctx = .ok (.boolean ((ofTree _ e).passes ctx))
      rw [passes_ofTree hv, hv]

theorem AreCompiled.combination (h : Combinator)
    (hcompiled : AreCompiled raws fs)
    (hkeeps : isExpression (apply h.name raws) = true ∨
      ∀ raw ∈ raws, KeepsMeaning raw) :
    ∃ g, compile .standard (apply h.name raws) = .ok g ∧
      ∀ ctx, (∀ f ∈ fs, ∃ v, f.expression.evaluate ctx = .ok v) →
        g.passes ctx = h.combine (fs.map (·.passes ctx)) := by
  obtain ⟨e, he, hvalue⟩ :=
    compilesTo_combination h hcompiled.compilesTo hkeeps
  refine ⟨ofTree _ e, compile_iff.2 ⟨e, he, rfl⟩, fun ctx hvalues => ?_⟩
  exact passes_ofTree (hvalue ctx _ (hcompiled.haveValues hvalues))

/-- A combination of filters that compile compiles and passes what its
connective makes of what its operands pass, wherever these have values, if it is
in the grammar of expressions or legacy conversion keeps the meaning of those
operands that are. -/
theorem compile_combination (h : Combinator) (hcompiled : AreCompiled raws fs)
    (hkeeps : isExpression (apply h.name raws) = true ∨
      ∀ raw ∈ raws, isExpression raw = true → KeepsMeaning raw) :
    ∃ g, compile .standard (apply h.name raws) = .ok g ∧
      ∀ ctx, (∀ f ∈ fs, ∃ v, f.expression.evaluate ctx = .ok v) →
        g.passes ctx = h.combine (fs.map (·.passes ctx)) :=
  hcompiled.combination h (hkeeps.imp_right fun hexprs raw hraw =>
    keepsMeaning_of_isExpression_imp (hexprs raw hraw))

/-- For operands that legacy conversion can read, which is decided on the
document, the law holds without further conditions. -/
theorem compile_readable_combination (h : Combinator)
    (hcompiled : AreCompiled raws fs)
    (hreadable : ∀ raw ∈ raws, LegacyReadable raw) :
    ∃ g, compile .standard (apply h.name raws) = .ok g ∧
      ∀ ctx, (∀ f ∈ fs, ∃ v, f.expression.evaluate ctx = .ok v) →
        g.passes ctx = h.combine (fs.map (·.passes ctx)) :=
  hcompiled.combination h
    (.inr fun raw hraw => (hreadable raw hraw).keepsMeaning)

/-- What both grammars share may stand next to a legacy filter. Of `false`,
legacy conversion makes what passes everything. -/
example :
    let equals : Json := apply "==" [.string "a", .string "b"]
    LegacyReadable
        (apply "any" [equals, apply "has" [.string "c"], .boolean true]) ∧
      ¬ LegacyReadable (.boolean false) := by
  decide

/-! Operands of both grammars, and a feature with the property that they ask
for. -/

/-- `["==", "a", "b"]`, a legacy filter. -/
def propertyDocument : Json := apply "==" [.string "a", .string "b"]

/-- What the legacy filter compiles to. -/
def propertyTest : Expr :=
  .compound "filter-==" .boolean .propertyEquals false
    [.literal .string (.string "a"), .literal .string (.string "b")]

theorem compile_propertyDocument :
    compile .standard propertyDocument =
      .ok (ofTree propertyDocument propertyTest) := by
  rfl

/-- A feature that passes the filter. -/
def propertyContext : Context :=
  { feature := some { properties := [("a", .string "b")] } }

theorem compile_boolean (b : Bool) :
    compile .standard (.boolean b) =
      .ok (ofTree (.boolean b) (.literal .boolean (.boolean b))) := by
  rfl

theorem compile_combination_mixed :
    ∃ g, compile .standard
        (apply "none" [.boolean true, propertyDocument]) = .ok g ∧
      g.passes propertyContext = false := by
  have hcompiled : AreCompiled [.boolean true, propertyDocument] _ :=
    .cons (compile_boolean true) (.cons compile_propertyDocument .nil)
  have hkeeps : ∀ raw ∈ [.boolean true, propertyDocument],
      isExpression raw = true → KeepsMeaning raw :=
    List.forall_mem_cons.2 ⟨fun _ => LegacyReadable.pass.keepsMeaning,
      List.forall_mem_singleton.2 nofun⟩
  obtain ⟨g, hg, hpasses⟩ :=
    compile_combination .none hcompiled (.inr hkeeps)
  refine ⟨g, hg, (hpasses propertyContext ?_).trans rfl⟩
  refine List.forall_mem_cons.2 ⟨⟨.boolean true, rfl⟩, ?_⟩
  exact List.forall_mem_singleton.2 ⟨.boolean true, rfl⟩

/-- Next to a legacy filter, `false` is read as a legacy filter that passes
everything. -/
theorem compile_combination_false :
    ∃ f₁ f₂ g, compile .standard (.boolean false) = .ok f₁ ∧
      compile .standard propertyDocument = .ok f₂ ∧
      compile .standard (apply "all" [.boolean false, propertyDocument]) =
        .ok g ∧
      f₁.expression.evaluate propertyContext = .ok (.boolean false) ∧
      f₂.expression.evaluate propertyContext = .ok (.boolean true) ∧
      g.passes propertyContext ≠
        (f₁.passes propertyContext && f₂.passes propertyContext) := by
  let combined : Expr :=
    .all .boolean [.literal .boolean (.boolean true), propertyTest]
  have hcombined :
      compile .standard (apply "all" [.boolean false, propertyDocument]) =
        .ok (ofTree (apply "all" [.boolean false, propertyDocument])
          combined) := by
    rfl
  refine ⟨_, _, _, compile_boolean false, compile_propertyDocument, hcombined,
    rfl, rfl, ?_⟩
  have hpasses : combined.evaluate propertyContext = .ok (.boolean true) := by
    rfl
  have hfails : (Expr.literal .boolean (.boolean false)).evaluate
      propertyContext = .ok (.boolean false) := by
    rfl
  rw [passes_ofTree hpasses, passes_ofTree hfails]
  exact nofun

end FeatureFilter

end MapStyle
