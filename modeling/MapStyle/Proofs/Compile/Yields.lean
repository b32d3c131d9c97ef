import MapStyle.Proofs.Compile.Documents
import MapStyle.Proofs.Compile.Folding

/-!
# Documents that always have a value

Most documents that compile may still fail on some features. What legacy
filters are expressed in never does, and `Compiler.Yields` says so: wherever a
type is expected, the document compiles, and in every context the expression
has the value that is given.

Each rule of the compiler that these documents use has a lemma here. The type
of the expression is not part of the statement, because the rule that compiles
a document has compared it with the expected type by then and no rule that
takes the expression as an operand asks again.
-/

namespace MapStyle

theorem Value.ofJsonItems_eq_map (js : List Json) :
    ofJsonItems js = js.map ofJson := by
  induction js with
  | nil => rw [ofJsonItems, List.map_nil]
  | cons j js ih => rw [ofJsonItems, ih, List.map_cons]

namespace Compile

variable {s : Site} {e : Expr} {ty : Ty} {f : Context → Value}

/-- An expression of a known type that is expected stays as it is. -/
theorem conform_of_accepts (hs : s.expected = some ty) (hcolor : ty ≠ .color)
    (hvalue : e.type ≠ .value) (hty : ty.accepts e.type = true)
    (how : Option Narrowing) : conform s how e = .ok e := by
  have hnarrow : ¬ (isNarrowable ty && e.type == .value) = true := by
    simp [hvalue]
  have hconvert : ¬ (ty == .color &&
      (e.type == .value || e.type == .string)) = true := by
    simp [hcolor]
  rw [conform, hs]
  show (if _ then _ else if _ then _ else if _ then _ else _) = _
  rw [if_neg hnarrow, if_neg hconvert, if_pos hty]
  rfl

/-- Only the empty list takes its type from what is expected. -/
theorem literal_of_ne_nil {js : List Json} (hjs : js ≠ [])
    (compile : Site → Option Narrowing → Compiled Expr) (s : Site) :
    literal s [⟨.array js, compile⟩] = .ok (Expr.ofJson (.array js)) := by
  rw [literal]
  split
  · next heq _ =>
      injection heq with hty _
      have hnil := Value.eq_nil_of_type hty
      rw [Value.ofJson, Value.ofJsonItems_eq_map] at hnil
      injection hnil with hnil
      exact absurd (List.map_eq_nil_iff.1 hnil) hjs
  · rfl

end Compile

namespace Compiler

open Compile

variable (c : Compiler)

/-- Where a type is expected the document compiles, and the expression has
the value `f` in every context. -/
def Yields (ty : Ty) (raw : Json) (f : Context → Value) : Prop :=
  ∀ s : Site, s.expected = some ty → ∃ e, c.compile raw s none = .ok e ∧
    ∀ ctx, e.evaluate ctx = .ok (f ctx)

/-- Operands each of which yields a value where its own type is expected. -/
inductive AllYield : List Ty → List Json → List (Context → Value) → Prop where
  | nil : AllYield [] [] []
  | cons {ty : Ty} {raw : Json} {f : Context → Value} {tys : List Ty}
      {raws : List Json} {fs : List (Context → Value)}
      (head : c.Yields ty raw f) (tail : AllYield tys raws fs) :
      AllYield (ty :: tys) (raw :: raws) (f :: fs)

variable {c}

theorem finish_yields {s : Site} {e : Expr} {ty : Ty} {f : Context → Value}
    (hs : s.expected = some ty) (hcolor : ty ≠ .color)
    (hvalue : e.type ≠ .value) (hty : ty.accepts e.type = true)
    (h : ∀ ctx, e.evaluate ctx = .ok (f ctx)) :
    ∃ e', finish c.folding s none e = .ok e' ∧
      ∀ ctx, e'.evaluate ctx = .ok (f ctx) := by
  obtain ⟨a, ha⟩ := exists_settle (fun _ => ⟨_, h {}⟩) c.folding s
  rw [finish, conform_of_accepts hs hcolor hvalue hty]
  exact ⟨a, ha, fun ctx => (evaluate_of_settle ha ctx).trans (h ctx)⟩

/-- A scalar yields itself. -/
theorem yields_scalar {ty : Ty} {j : Json} (harray : j.array? = none)
    (hobject : j.object? = none) (hcolor : ty ≠ .color)
    (hty : ty.accepts (Value.ofJson j).type = true) :
    c.Yields ty j fun _ => .ofJson j := by
  intro s hs
  have hcompile : c.compile j s none =
      finish c.folding s none (Expr.ofJson j) := by
    cases j with
    | array items => cases harray
    | object fields => cases hobject
    | _ => rw [compile]
  rw [hcompile]
  exact finish_yields hs hcolor (Value.type_ne_value _) hty fun _ => rfl

/-- A list of at least one item yields its items. -/
theorem yields_list {item : Ty} {js : List Json}
    (hlookup : c.registry.lookup "literal" = some (.special "literal" .literal))
    (hjs : js ≠ []) (hty : (Ty.array item none).accepts
      (Value.array (js.map Value.ofJson)).type = true) :
    c.Yields (.array item none) (.array [.string "literal", .array js])
      fun _ => .array (js.map Value.ofJson) := by
  intro s hs
  have hcompile : c.compile (.array [.string "literal", .array js]) s none =
      finish c.folding s none (Expr.ofJson (.array js)) := by
    simp only [compile, operands, application]
    rw [hlookup]
    simp only [form]
    rw [literal_of_ne_nil hjs]
    rfl
  rw [hcompile]
  rw [← Value.ofJsonItems_eq_map, ← Value.ofJson] at hty ⊢
  exact finish_yields hs (by simp) (Value.type_ne_value _) hty fun _ => rfl

theorem AllYield.compile {tys : List Ty} {raws : List Json}
    {fs : List (Context → Value)} (h : c.AllYield tys raws fs) (s : Site)
    (i : Nat) : ∃ es, operandsAgainst s i tys (c.operands raws) = .ok es ∧
      ∀ ctx, Expr.evaluateList ctx es = fs.map fun f => .ok (f ctx) := by
  induction h generalizing i with
  | nil => exact ⟨[], rfl, fun _ => rfl⟩
  | @cons ty raw f tys raws fs head tail ih =>
      obtain ⟨e, he, hv⟩ := head (s.child i (some ty) []) rfl
      obtain ⟨es, hes, hvs⟩ := ih (i + 1)
      refine ⟨e :: es, ?_, fun ctx => ?_⟩
      · simp only [operands, operandsAgainst, Operand.compileAt]
        rw [he, hes]
        rfl
      · rw [Expr.evaluateList, hv, hvs]
        rfl

/-- An operator of which one signature takes so many operands makes a node of
the operands, each of which is compiled as what the signature expects. -/
theorem compile_compound {name : String} {op : CompoundOperator Primitive}
    {sig : Signature Primitive} {ty : Ty} {raws : List Json} {s : Site}
    (hlookup : c.registry.lookup name = some (.compound op))
    (hsignature : (op.signatures.filter fun o =>
      o.params.acceptsCount raws.length) = [sig])
    (hs : s.expected = some ty) (hcolor : ty ≠ .color)
    (hvalue : op.output ≠ .value) (hty : ty.accepts op.output = true) :
    c.compile (.array (.string name :: raws)) s none =
      operandsAgainst s 1 (sig.params.expected raws.length)
          (c.operands raws) >>=
        fun es => settle c.folding s
          (.compound op.name op.output sig.primitive op.impure es) := by
  have hchoice : choice op s (c.operands raws) =
      attempt op s (c.operands raws) sig := by
    rw [choice, length_operands, hsignature]
  simp only [compile, operands, application]
  rw [hlookup]
  simp only
  rw [compound, hchoice, attempt, length_operands]
  cases operandsAgainst s 1 (sig.params.expected raws.length)
      (c.operands raws) with
  | error ds => rfl
  | ok es =>
      let node : Expr :=
        .compound op.name op.output sig.primitive op.impure es
      have hconform : conform s none node = .ok node :=
        conform_of_accepts (e := node) hs hcolor hvalue hty none
      show finish c.folding s none node = _
      rw [finish, hconform]
      rfl

/-- An operator that takes the operands by one signature yields what its
primitive makes of them. -/
theorem yields_compound {name : String} {op : CompoundOperator Primitive}
    {primitive : Primitive} {ty : Ty} {tys : List Ty} {raws : List Json}
    {fs : List (Context → Value)} {f : Context → Value}
    (hlookup : c.registry.lookup name = some (.compound op))
    (hsignature : (op.signatures.filter fun o =>
      o.params.acceptsCount raws.length) = [⟨.fixed tys, primitive⟩])
    (hargs : c.AllYield tys raws fs) (hcolor : ty ≠ .color)
    (hvalue : op.output ≠ .value) (hty : ty.accepts op.output = true)
    (hf : ∀ ctx, primitive.apply ctx (fs.map fun f => .ok (f ctx)) =
      .ok (f ctx)) :
    c.Yields ty (.array (.string name :: raws)) f := by
  intro s hs
  obtain ⟨es, hes, hvs⟩ := hargs.compile s 1
  have hnode (ctx : Context) :
      (Expr.compound op.name op.output primitive op.impure es).evaluate ctx =
        .ok (f ctx) := by
    rw [Expr.evaluate, hvs, hf]
  obtain ⟨e, he⟩ := exists_settle (fun _ => ⟨_, hnode {}⟩) c.folding s
  rw [compile_compound hlookup hsignature hs hcolor hvalue hty,
    Params.expected, hes]
  exact ⟨e, he, fun ctx => (evaluate_of_settle he ctx).trans (hnode ctx)⟩

/-! ## Tests -/

variable (c) in
/-- A document that yields a boolean where one is expected. -/
def Tests (raw : Json) (m : Context → Bool) : Prop :=
  c.Yields .boolean raw fun ctx => .boolean (m ctx)

theorem compileAll_of_tests {raws : List Json} {ms : List (Context → Bool)}
    (h : List.Forall₂ c.Tests raws ms) (s : Site) (i : Nat) :
    ∃ es, Operand.compileAll s (some .boolean) i (c.operands raws) = .ok es ∧
      ∀ ctx, Expr.evaluateList ctx es =
        ms.map fun m => .ok (.boolean (m ctx)) := by
  induction h generalizing i with
  | nil => exact ⟨[], rfl, fun _ => rfl⟩
  | @cons raw m raws ms head tail ih =>
      obtain ⟨e, he, hv⟩ := head (s.child i (some .boolean) []) rfl
      obtain ⟨es, hes, hvs⟩ := ih (i + 1)
      refine ⟨e :: es, ?_, fun ctx => ?_⟩
      · simp only [operands, Operand.compileAll, Operand.compileAt]
        rw [he, hes]
        rfl
      · rw [Expr.evaluateList, hv, hvs]
        rfl

theorem tests_boolean (b : Bool) : c.Tests (.boolean b) fun _ => b :=
  yields_scalar rfl rfl (by simp) rfl

theorem any_booleans {α : Type} (as : List α) (f : α → Bool) :
    Semantics.any (as.map fun a => .ok (.boolean (f a))) =
      .ok (.boolean (as.any f)) := by
  induction as with
  | nil => rfl
  | cons a as ih =>
      rw [List.map_cons, Semantics.any, List.any_cons]
      show (if f a = true then _ else _) = _
      cases f a with
      | true => rfl
      | false => exact ih

theorem all_booleans {α : Type} (as : List α) (f : α → Bool) :
    Semantics.all (as.map fun a => .ok (.boolean (f a))) =
      .ok (.boolean (as.all f)) := by
  induction as with
  | nil => rfl
  | cons a as ih =>
      rw [List.map_cons, Semantics.all, List.all_cons]
      show (if f a = true then _ else _) = _
      cases f a with
      | true => exact ih
      | false => rfl

/-- A connective makes a node of its operands, each of which is compiled as a
boolean. -/
theorem compile_connective {node : Ty → List Expr → Expr} {name : String}
    {form : SpecialForm} {s : Site}
    (hlookup : c.registry.lookup name = some (.special name form))
    (hform : Compile.form form name = connective node)
    (htype : ∀ es, (node .boolean es).type = .boolean)
    (hs : s.expected = some .boolean) (raws : List Json) :
    c.compile (.array (.string name :: raws)) s none =
      Operand.compileAll s (some .boolean) 1 (c.operands raws) >>=
        fun es => settle c.folding s (node .boolean es) := by
  simp only [compile, operands, application]
  rw [hlookup]
  simp only
  rw [hform, connective]
  cases Operand.compileAll s (some .boolean) 1 (c.operands raws) with
  | error ds => rfl
  | ok es =>
      have hconform : conform s none (node .boolean es) =
          .ok (node .boolean es) :=
        conform_of_accepts hs (by simp) (by rw [htype]; simp)
          (by rw [htype]; rfl) none
      show finish c.folding s none (node .boolean es) = _
      rw [finish, hconform]
      rfl

/-- A connective yields what it makes of its operands. -/
theorem tests_connective (node : Ty → List Expr → Expr) {name : String}
    {form : SpecialForm} {raws : List Json} {ms : List (Context → Bool)}
    {m : Context → Bool}
    (hlookup : c.registry.lookup name = some (.special name form))
    (hform : Compile.form form name = connective node)
    (htype : ∀ es, (node .boolean es).type = .boolean)
    (h : List.Forall₂ c.Tests raws ms)
    (hm : ∀ ctx es, Expr.evaluateList ctx es =
      (ms.map fun m => .ok (.boolean (m ctx))) →
        (node .boolean es).evaluate ctx = .ok (.boolean (m ctx))) :
    c.Tests (.array (.string name :: raws)) m := by
  intro s hs
  obtain ⟨es, hes, hvs⟩ := compileAll_of_tests h s 1
  have hnode := fun ctx => hm ctx es (hvs ctx)
  obtain ⟨e, he⟩ := exists_settle (fun _ => ⟨_, hnode {}⟩) c.folding s
  rw [compile_connective hlookup hform htype hs, hes]
  exact ⟨e, he, fun ctx => (evaluate_of_settle he ctx).trans (hnode ctx)⟩

theorem tests_any {raws : List Json} {ms : List (Context → Bool)}
    (hlookup : c.registry.lookup "any" = some (.special "any" .any))
    (h : List.Forall₂ c.Tests raws ms) :
    c.Tests (.array (.string "any" :: raws)) fun ctx => ms.any fun m => m ctx :=
  tests_connective .any hlookup rfl (fun _ => rfl) h
    fun ctx es hes => by rw [Expr.evaluate, hes, any_booleans]

theorem tests_all {raws : List Json} {ms : List (Context → Bool)}
    (hlookup : c.registry.lookup "all" = some (.special "all" .all))
    (h : List.Forall₂ c.Tests raws ms) :
    c.Tests (.array (.string "all" :: raws)) fun ctx => ms.all fun m => m ctx :=
  tests_connective .all hlookup rfl (fun _ => rfl) h
    fun ctx es hes => by rw [Expr.evaluate, hes, all_booleans]

end Compiler

end MapStyle
